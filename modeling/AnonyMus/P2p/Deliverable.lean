import AnonyMus.P2p.Requests

/-!
# P2P node — from one node to another

The payload that `send_message` queues, handed to `p2p_message` of the node it is
for. A sealed message is sent with the sender `sealed`, which the other node
takes for an onion address and refuses.

* `read_messagePayload` — the request model of the receiver reads the payload;
* `passes_messagePayload` — it passes the checks;
* `deliverable_iff` — it is stored as it was sent exactly when it is not sealed
  and the sender's own address is valid.
-/

namespace AnonyMus.P2p

open EStateM
open Relay (strip)

/-! ## Two nodes -/

/-- What the documentation says of the runtime: lower-case text stays, a field takes a JSON
value of its own type, and a time is read back from its ISO text. -/
structure Runtime.Documented (R : Runtime) : Prop where
  lower    : R.lower "sealed" = "sealed"
  str      : ∀ s, R.str (.str s) = some s
  int      : ∀ n, R.int (.int n) = some n
  bool     : ∀ b, R.bool (.bool b) = some b
  datetime : ∀ value stamp, R.datetime value = some stamp →
    R.datetime (.str (String.ofList stamp.isoformat)) = some stamp

/-- Node `a` accepted `request`, stored `row` and queued `payload` at the time `timestamp`,
which its clock can show. -/
structure Queued (R : Runtime) (a : Node) (request : SendMessageRequest) (row : Message)
    (timestamp : ℤ) (payload : Json) : Prop where
  read  : ∃ body, SendMessageRequest.read R body = some request
  sent  : ∃ caller uuid sentAt a',
    sendMessage caller request uuid sentAt timestamp a = .ok (uuid, row) a' ∧
      a'.tasks = a.tasks ++ [.transmitP2pMessage request.recipientOnion payload]
  clock : R.fromTimestamp timestamp ≠ none

/-- Node `b` lists the address as an accepted contact, and has stored only numbers below `seq`
from it. -/
structure Listed (b : Node) (onion : String) (seq : ℤ) : Prop where
  accepted : ∃ user id c, b.users.head? = some user ∧
    b.contact? user.onionAddress onion = some (id, c) ∧ c.status = .accepted
  below : ∀ m ∈ b.messages.values, m.senderOnion = onion → m.sequenceNumber < seq

/-- Node `b` accepts the payload, and stores what was sent. -/
def StoredAsSent (R : Runtime) (b : Node) (payload : Json) (uuid : String)
    (request : SendMessageRequest) : Prop :=
  ∃ b' row, Request.run R (.message payload uuid) b = .ok ⟨⟩ b' ∧
    b'.messages.get? uuid = some row ∧ row.ciphertextB64 = request.ciphertextB64 ∧
    row.ivB64 = request.ivB64 ∧ row.sequenceNumber = request.sequenceNumber ∧
    row.sealedSender = request.sealedSender

/-! ## The payload -/

variable {R : Runtime} {a b : Node} {request : SendMessageRequest} {row : Message} {timestamp : ℤ}
  {payload : Json} {uuid onion : String}

/-- What the receiver reads. -/
def receivedRequest (onion : String) (request : SendMessageRequest) (timestamp : ℤ) :
    P2PMessageRequest where
  sender       := some (if request.sealedSender.isSome then "sealed" else onion)
  sealedSender := request.sealedSender
  iv           := request.ivB64
  ciphertext   := request.ciphertextB64
  seq          := request.sequenceNumber
  timestamp    := timestamp
  disappearsAt := request.disappearsAt
  ephemeral    := false

theorem read_dump (hR : R.Documented) (block : SealedSenderBlock) :
    SealedSenderBlock.read R block.dump = some block := by
  simp [SealedSenderBlock.read, SealedSenderBlock.dump, Json.members?, Json.required,
    List.lookup_cons, hR.str]

/-- A request that is read has a number that is not negative and a time that was read. -/
theorem read_sendMessageRequest {body : Json} (h : SendMessageRequest.read R body = some request) :
    0 ≤ request.sequenceNumber ∧
      ∀ stamp ∈ request.disappearsAt, ∃ value, R.datetime value = some stamp := by
  simp only [SendMessageRequest.read, Option.bind_eq_bind, Option.bind_eq_some_iff,
    Option.guard_eq_some'] at h
  obtain ⟨members, -, _, -, _, -, _, -, _, -, seq, -, _, hseq, stamp, hstamp, _, -, hrequest⟩ := h
  obtain rfl := Option.some.inj hrequest
  refine ⟨hseq, ?_⟩
  rintro stamp ⟨⟩
  unfold Json.optional at hstamp
  rcases hvalue : members.lookup "disappears_at" with _ | value
  · rw [hvalue] at hstamp
    cases hstamp
  · rw [hvalue] at hstamp
    rcases value with _ | _ | _ | _ | _ | _ | _ <;>
      first | cases hstamp | exact ⟨_, by simpa using hstamp⟩

/-- A member that is null when there is nothing to say. -/
theorem optional_of_map {α : Type} (read : Json → Option α) (write : α → Json) {x : Option α}
    (hread : ∀ y ∈ x, read (write y) = some y) (hnull : ∀ y ∈ x, write y ≠ .null)
    {members : List (String × Json)} {key : String}
    (hmember : members.lookup key = some ((x.map write).getD .null)) :
    Json.optional read members key = some x := by
  unfold Json.optional
  rw [hmember]
  rcases x with _ | y
  · rfl
  · rw [Option.map_some, Option.getD_some]
    split
    · rename_i h
      cases h
    · rename_i h
      exact absurd (Option.some.inj h) (hnull y rfl)
    · rename_i value _ h
      rw [← Option.some.inj h, hread y rfl]
      rfl

/-- The request model of the receiver reads the payload. -/
theorem read_messagePayload (hR : R.Documented) (hseq : 0 ≤ request.sequenceNumber)
    (htime : ∀ stamp ∈ request.disappearsAt, ∃ value, R.datetime value = some stamp) :
    P2PMessageRequest.read R (messagePayload onion request timestamp) =
      some (receivedRequest onion request timestamp) := by
  unfold P2PMessageRequest.read messagePayload
  simp only [Json.members?, Option.bind_eq_bind, Option.bind_some]
  -- the members that may be null
  rw [optional_of_map (SealedSenderBlock.read R) SealedSenderBlock.dump
      (fun block (_ : block ∈ request.sealedSender) => read_dump hR block)
      (by simp [SealedSenderBlock.dump]) (by simp [List.lookup_cons]),
    optional_of_map R.datetime (fun s => .str (String.ofList s.isoformat))
      (fun stamp (hstamp : stamp ∈ request.disappearsAt) =>
        (htime stamp hstamp).elim fun value => hR.datetime value stamp)
      (by simp) (by simp [List.lookup_cons])]
  simp [Json.required, Json.defaulted, Json.optional, List.lookup_cons, hR.str, hR.int, hR.bool, hseq,
    receivedRequest]

/-! ## The receiver -/

/-- The sender that the receiver takes an unsealed message to have. -/
theorem namedSender_eq_ok_iff {sender : String} (hne : sender ≠ "") {named : Option String} :
    namedSender R (some sender) = .ok named ↔
      isOnion (R.lower (strip sender)) = true ∧ named = some (R.lower (strip sender)) := by
  unfold namedSender validateOnion
  rw [truthy_of_ne hne]
  dsimp only
  split_ifs with honion
  · constructor
    · intro h
      exact ⟨honion, (Except.ok.inj h).symm⟩
    · rintro ⟨-, rfl⟩
      rfl
  · constructor
    · intro h
      cases h
    · rintro ⟨h, -⟩
      exact absurd h honion

/-- `sealed` is not an onion address. -/
theorem namedSender_sealed (hR : R.Documented) {named : Option String} :
    namedSender R (some "sealed") ≠ .ok named := by
  intro h
  obtain ⟨honion, -⟩ := (namedSender_eq_ok_iff (by decide)).mp h
  rw [show strip "sealed" = "sealed" by decide, hR.lower] at honion
  exact absurd honion (by decide)

theorem Listed.checkSender {seq : ℤ} (h : Listed b onion seq) :
    ∃ user, b.users.head? = some user ∧ checkSender user onion seq b = .ok ⟨⟩ b := by
  obtain ⟨user, id, c, huser, hfound, haccepted⟩ := h.accepted
  refine ⟨user, huser, ?_⟩
  unfold P2p.checkSender
  split_ifs with hsealed
  · rfl
  rw [apply_bind, apply_get]
  dsimp only
  rw [hfound]
  dsimp only
  rw [if_neg (not_not_intro haccepted)]
  rcases hlast : b.lastSeq onion user.onionAddress with _ | lastSeq
  · rfl
  · -- the largest number belongs to a row of the sender
    obtain ⟨m, hm, hseq⟩ := List.mem_map.mp (List.max?_mem hlast)
    obtain ⟨hmem, hsender⟩ := List.mem_filter.mp hm
    have hlt := h.below m hmem (of_decide_eq_true hsender).1
    dsimp only
    rw [if_neg (by omega)]
    rfl

/-- The payload of an unsealed message passes the checks of a node that lists its sender. -/
theorem passes_messagePayload (hne : onion ≠ "") (hsealed : request.sealedSender = none)
    (honion : isOnion (R.lower (strip onion)) = true)
    (hlisted : Listed b (R.lower (strip onion)) request.sequenceNumber)
    (hclock : R.fromTimestamp timestamp ≠ none)
    (hstorable : b.Storable uuid request.sequenceNumber) :
    ∃ user, Passes R (receivedRequest onion request timestamp) uuid user (R.lower (strip onion)) b := by
  obtain ⟨user, huser, hchecks⟩ := hlisted.checkSender
  refine ⟨user, huser, ⟨some (R.lower (strip onion)), ?_, rfl⟩, hchecks, hclock, .inr hstorable⟩
  rw [receivedRequest, hsealed]
  exact (namedSender_eq_ok_iff hne).mpr ⟨honion, rfl⟩

/-- A payload of `send_message` is accepted by a node that lists the sender, and stored as it was
sent, exactly when it is not sealed and the sender's address is an onion address. -/
theorem deliverable_iff (hR : R.Documented) (hqueued : Queued R a request row timestamp payload)
    (hlisted : Listed b (R.lower (strip row.senderOnion)) request.sequenceNumber)
    (hfresh : b.messages.get? uuid = none) :
    StoredAsSent R b payload uuid request ↔
      request.sealedSender = none ∧ isOnion (R.lower (strip row.senderOnion)) = true := by
  obtain ⟨body, hread⟩ := hqueued.read
  obtain ⟨hseq, htime⟩ := read_sendMessageRequest hread
  obtain ⟨caller, id, sentAt, a', hsend, htasks⟩ := hqueued.sent
  rcases sendMessage_cases a caller request id sentAt timestamp with
    ⟨e, herror⟩ | ⟨onion, a'', hok, hne, ⟨-, hlow, hhigh⟩, -, htasks', -⟩
  · cases hsend.symm.trans herror
  obtain ⟨hrow, rfl⟩ := Result.ok.inj (hsend.symm.trans hok)
  obtain rfl := (Prod.mk.inj hrow).2
  obtain rfl : payload = messagePayload onion request timestamp := by
    have h := List.append_cancel_left (htasks.symm.trans htasks')
    injection h with h
    injection h
  have hreceived : P2PMessageRequest.read R (messagePayload onion request timestamp) =
      some (receivedRequest onion request timestamp) := read_messagePayload hR hseq htime
  have hrun : Request.run R (.message (messagePayload onion request timestamp) uuid) b =
      (p2pMessage R (receivedRequest onion request timestamp) uuid >>= fun _ => pure ()) b := by
    rw [Request.run, apply_bind, hreceived]
    rfl
  show StoredAsSent R b _ uuid request ↔
    request.sealedSender = none ∧ isOnion (R.lower (strip onion)) = true
  rcases @p2pMessage_cases R b (receivedRequest onion request timestamp) uuid with
    ⟨e, herror, hnot⟩ | ⟨user, sender, b', hok', hpasses, hmessages, -⟩
  · constructor
    · rintro ⟨b', -, hrun', -⟩
      rw [hrun, apply_bind, herror] at hrun'
      cases hrun'
    · rintro ⟨hsealed, honion⟩
      have hstorable : b.Storable uuid request.sequenceNumber := ⟨hfresh, hlow, hhigh⟩
      obtain ⟨user, hpasses⟩ :=
        passes_messagePayload hne hsealed honion hlisted hqueued.clock hstorable
      exact absurd hpasses (hnot _ _)
  · constructor
    · intro _
      obtain ⟨named, hnamed, -⟩ := hpasses.filed
      rcases hsealed : request.sealedSender with _ | block
      · rw [receivedRequest, hsealed] at hnamed
        exact ⟨rfl, ((namedSender_eq_ok_iff hne).mp hnamed).1⟩
      · rw [receivedRequest, hsealed] at hnamed
        exact absurd hnamed (namedSender_sealed hR)
    · rintro -
      -- what is accepted is stored, since the payload is not ephemeral
      rcases hmessages with ⟨-, hephemeral⟩ | ⟨receivedAt, hmessages, -⟩
      · cases hephemeral
      refine ⟨b', messageRow user sender (receivedRequest onion request timestamp) receivedAt, ?_,
        ?_, rfl, rfl, rfl, rfl⟩
      · rw [hrun, apply_bind, hok']
        rfl
      · rw [hmessages, Dict.get?_insert, if_pos rfl]

/-! ## Two nodes that know each other -/

def aliceOnion : String := "aaaaaaaaaaaaaaaa.onion"

def bobOnion : String := "bbbbbbbbbbbbbbbb.onion"

/-- A node that lists one accepted contact. -/
def nodeListing (username onion peer : String) : Node where
  users    := [⟨username, some onion⟩]
  profiles := ["default"]
  contacts := Dict.empty.insert 1 ⟨onion, peer, none, none, none, .accepted, false, "default",
    none, true, none⟩
  messages := .empty
  bundles  := .empty
  notices  := []
  tasks    := []

def toBob (sealedSender : Option SealedSenderBlock) : SendMessageRequest where
  recipientOnion := bobOnion
  ciphertextB64  := "Y3Q="
  ivB64          := "aXY="
  sequenceNumber := 1
  disappearsAt   := none
  sealedSender   := sealedSender

def aMoment : DateTime := ⟨2023, 11, 15, 9, 30, 5, 0, by decide, by decide⟩

theorem asciiRuntime_documented : asciiRuntime.Documented where
  lower    := by decide
  str _    := rfl
  int _    := rfl
  bool _   := rfl
  datetime := by
    intro _ _ h
    cases h

theorem queued_toBob {sealedSender : Option SealedSenderBlock} (body : Json)
    (hread : SendMessageRequest.read asciiRuntime body = some (toBob sealedSender)) :
    Queued asciiRuntime (nodeListing "alice" aliceOnion bobOnion) (toBob sealedSender)
      (sentRow aliceOnion (toBob sealedSender) aMoment) 1700000000000
      (messagePayload aliceOnion (toBob sealedSender) 1700000000000) where
  read  := ⟨body, hread⟩
  sent  := ⟨⟨some "alice", "default"⟩, "m1", aMoment, _, rfl, rfl⟩
  clock := by decide

theorem listed_alice : Listed (nodeListing "bob" bobOnion aliceOnion)
    (asciiRuntime.lower (strip aliceOnion)) 1 where
  accepted := by
    refine ⟨⟨"bob", some bobOnion⟩, 1, ⟨bobOnion, aliceOnion, none, none, none, .accepted, false,
      "default", none, true, none⟩, rfl, ?_, rfl⟩
    decide +kernel
  below    := by
    intro m hm
    cases hm

def bodyToBob (sealedSender : Json) : Json :=
  .obj [("recipient_onion", .str bobOnion), ("ciphertext_b64", .str "Y3Q="),
    ("iv_b64", .str "aXY="), ("sequence_number", .int 1), ("sealed_sender", sealedSender)]

/-- An unsealed message of Alice is stored by Bob. -/
theorem unsealed_stored : StoredAsSent asciiRuntime (nodeListing "bob" bobOnion aliceOnion)
    (messagePayload aliceOnion (toBob none) 1700000000000) "r1" (toBob none) :=
  (deliverable_iff asciiRuntime_documented (queued_toBob (bodyToBob .null) (by rfl)) listed_alice
    rfl).mpr ⟨rfl, by decide⟩

def aliceBlock : SealedSenderBlock := ⟨"ZXBo", "Y3Q=", "aXY="⟩

/-- A sealed message of Alice, which `send_message` accepts, is refused by Bob. -/
theorem sealed_refused :
    Queued asciiRuntime (nodeListing "alice" aliceOnion bobOnion) (toBob (some aliceBlock))
      (sentRow aliceOnion (toBob (some aliceBlock)) aMoment) 1700000000000
      (messagePayload aliceOnion (toBob (some aliceBlock)) 1700000000000) ∧
    Listed (nodeListing "bob" bobOnion aliceOnion) (asciiRuntime.lower (strip aliceOnion)) 1 ∧
    (nodeListing "bob" bobOnion aliceOnion).messages.get? "r1" = none ∧
    ¬ StoredAsSent asciiRuntime (nodeListing "bob" bobOnion aliceOnion)
      (messagePayload aliceOnion (toBob (some aliceBlock)) 1700000000000) "r1" (toBob (some aliceBlock)) := by
  refine ⟨queued_toBob (bodyToBob aliceBlock.dump) rfl, listed_alice, rfl, ?_⟩
  rintro ⟨b', -, hrun, -⟩
  -- "sealed" is taken for an onion address
  have hrefused : Request.run asciiRuntime
      (.message (messagePayload aliceOnion (toBob (some aliceBlock)) 1700000000000) "r1")
      (nodeListing "bob" bobOnion aliceOnion) =
        .error (.http 400 "Invalid onion address") (nodeListing "bob" bobOnion aliceOnion) := rfl
  cases hrefused.symm.trans hrun

end AnonyMus.P2p
