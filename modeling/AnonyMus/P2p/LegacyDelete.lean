import AnonyMus.P2p.LegacyReplay

/-!
# P2P node — deletion requests to the Flask server

`p2p_delete` of `transports/p2p/server.py` deletes by conversation and
timestamp, whoever sent the message. Between the requests, the other endpoints
may do anything to the contacts and to the rows.

* `NodeEvent` — the requests, and what happens elsewhere;
* `Spares`, `Unshared` — a request leaves the user's messages and the other
  conversations alone; no message of the user has its timestamp;
* `spares_iff` — in every run, the one holds exactly when the other does.
-/

namespace AnonyMus.P2p.Legacy

open EStateM LegacyNode

/-- A request to the endpoints for messages, or what any other endpoint makes of
the two tables. -/
inductive NodeEvent
  | request (e : LegacyEvent)
  | elsewhere (contacts : Dict String LegacyContact) (messages : List LegacyRow)

/-- The messages that a peer has not sent: those of other conversations, and the
user's own. -/
def LegacyNode.notSentBy (peer : String) (n : LegacyNode) : List LegacyRow :=
  n.messages.filter fun r => r.peerOnion ≠ peer ∨ r.sender = "me"

variable (L : Library)

def NodeEvent.run : NodeEvent → Handler Unit
  | request e => e.run L
  | elsewhere contacts messages => modify fun n => { n with contacts, messages }

/-- A deletion request removes only messages that its sender has sent. -/
def Spares : NodeEvent → LegacyNode → Prop
  | .request (.p2pDelete data), n =>
    ∀ sender timestamp, readDelete L data = .ok (sender, timestamp) →
      (p2pDelete L data n).state.notSentBy (normalized L sender) =
        n.notSentBy (normalized L sender)
  | _, _ => True

/-- No message of the user to the contact who asks has the timestamp of a
deletion request. -/
def Unshared : NodeEvent → LegacyNode → Prop
  | .request (.p2pDelete data), n =>
    ∀ sender timestamp, readDelete L data = .ok (sender, timestamp) →
      (∃ contact, n.contacts.get? (normalized L sender) = some contact ∧
        contact.status = "accepted") →
      ∀ r ∈ n.messages, r.peerOnion = normalized L sender → r.timestamp = timestamp →
        r.sender ≠ "me"
  | _, _ => True

variable {L}

/-! ## One request -/

section

variable {data : Body} {sender : String} {timestamp : ℤ} {n : LegacyNode}

theorem p2pDelete_of_accepted (hread : readDelete L data = .ok (sender, timestamp))
    {contact : LegacyContact} (hget : n.contacts.get? (normalized L sender) = some contact)
    (hstatus : contact.status = "accepted") :
    (p2pDelete L data n).state = deleteByTimestamp L sender timestamp n := by
  have hcontact : acceptedContact L sender (.http 403 "Unauthorized contact.") n =
      .ok contact n := by
    simp only [acceptedContact, apply_bind, apply_get, hget, if_pos hstatus, apply_pure]
  simp only [p2pDelete, hread, apply_bind, apply_ofExcept_ok, hcontact, apply_modify, apply_pure,
    Result.state_ok]

theorem p2pDelete_of_refused (hread : readDelete L data = .ok (sender, timestamp))
    (hno : ¬ ∃ contact, n.contacts.get? (normalized L sender) = some contact ∧
      contact.status = "accepted") :
    (p2pDelete L data n).state = n := by
  simp only [p2pDelete, hread, apply_bind, apply_ofExcept_ok]
  have hcontact : acceptedContact L sender (.http 403 "Unauthorized contact.") n =
      .error (.http 403 "Unauthorized contact.") n := by
    rw [acceptedContact, apply_bind, apply_get]
    dsimp only
    cases hget : n.contacts.get? (normalized L sender) with
    | none => rfl
    | some contact =>
      dsimp only
      rw [if_neg fun hstatus => hno ⟨contact, hget, hstatus⟩]
      rfl
  rw [hcontact]
  rfl

/-- Deleting by timestamp spares the rows that match in nothing else. -/
theorem notSentBy_deleteByTimestamp_iff :
    (deleteByTimestamp L sender timestamp n).notSentBy (normalized L sender) =
        n.notSentBy (normalized L sender) ↔
      ∀ r ∈ n.messages, r.peerOnion = normalized L sender → r.timestamp = timestamp →
        r.sender ≠ "me" := by
  have hcomm : (deleteByTimestamp L sender timestamp n).notSentBy (normalized L sender) =
      (n.notSentBy (normalized L sender)).filter fun r =>
        ¬ (r.peerOnion = normalized L sender ∧ r.timestamp = timestamp) := by
    simp only [deleteByTimestamp, notSentBy, List.filter_filter, Bool.and_comm]
  rw [hcomm, List.filter_eq_self]
  simp only [notSentBy, List.mem_filter, decide_eq_true_eq]
  constructor
  · intro h r hr hpeer htime hme
    exact h r ⟨hr, Or.inr hme⟩ ⟨hpeer, htime⟩
  · rintro h r ⟨hr, hother⟩ ⟨hpeer, htime⟩
    exact h r hr hpeer htime (hother.resolve_left (not_not_intro hpeer))

theorem spares_step_iff (e : NodeEvent) (n : LegacyNode) : Spares L e n ↔ Unshared L e n := by
  cases e with
  | elsewhere contacts messages => exact Iff.rfl
  | request e =>
    cases e with
    | p2pDelete data =>
      constructor
      · rintro h sender timestamp hread ⟨contact, hget, hstatus⟩
        have hspares := h sender timestamp hread
        rw [p2pDelete_of_accepted hread hget hstatus] at hspares
        exact notSentBy_deleteByTimestamp_iff.mp hspares
      · intro h sender timestamp hread
        by_cases hcontact : ∃ contact, n.contacts.get? (normalized L sender) = some contact ∧
            contact.status = "accepted"
        · obtain ⟨contact, hget, hstatus⟩ := id hcontact
          rw [p2pDelete_of_accepted hread hget hstatus]
          exact notSentBy_deleteByTimestamp_iff.mpr (h sender timestamp hread hcontact)
        · -- a refused request deletes nothing
          rw [p2pDelete_of_refused hread hcontact]
    | _ => exact Iff.rfl

end

/-! ## Runs -/

/-- **What remote deletion removes.** In every run of the node, whatever the other
endpoints do in between, each deletion request leaves the user's own messages
and all other conversations alone exactly when no message of the user to the
contact who asks has the timestamp of the request. -/
theorem spares_iff (L : Library) (events : List NodeEvent) (n : LegacyNode) :
    AllMeet (NodeEvent.run L) (Spares L) events n ↔
      AllMeet (NodeEvent.run L) (Unshared L) events n := by
  rw [allMeet_iff, allMeet_iff]
  constructor
  · intro h done e todo hsplit
    exact (spares_step_iff e _).mp (h done e todo hsplit)
  · intro h done e todo hsplit
    exact (spares_step_iff e _).mpr (h done e todo hsplit)

/-- The contact asks to delete what has the timestamp. -/
def deletedByCarol (timestamp : ℤ) : NodeEvent :=
  .request (.p2pDelete [("sender", .str carolOnion), ("timestamp", .int timestamp)])

/-- Carol has the user's message deleted that was sent at time 1000. -/
theorem toCarol_deleted :
    ¬ AllMeet (NodeEvent.run plainLibrary) (Spares plainLibrary)
      [.request (toCarol 1 1000), deletedByCarol 1000] carolsFriend := by
  rintro ⟨-, hspares, -⟩
  have hread : readDelete plainLibrary [("sender", .str carolOnion), ("timestamp", .int 1000)] =
      .ok (carolOnion, 1000) := rfl
  have hkept := congrArg List.length (hspares carolOnion 1000 hread)
  exact absurd hkept (by decide +kernel)

end AnonyMus.P2p.Legacy
