import AnonyMus.P2p.Requests

/-!
# P2P node — replayed messages

`p2p_message` accepts a sequence number above the largest one stored from the
sender. What it accepts without leaving a row that this check reads, it can
accept again: an ephemeral message, and a sealed one, which is not checked.

* `received` — what is accepted, under which sender and number;
* `AntiReplay` — nothing is accepted twice, and the numbers of a sender grow;
* `antiReplay_iff` — this is so exactly when no message that passes the checks
  repeats, or falls below, the number of an unrecorded one of its sender.
-/

namespace AnonyMus.P2p

open EStateM

/-! ## Accepted messages -/

/-- A message that was accepted. -/
structure Received where
  sender    : String
  seq       : ℤ
  ephemeral : Bool
deriving DecidableEq

section

variable (R : Runtime)

/-- The sender that a message is filed under, when it names one at all. -/
def senderOf (request : P2PMessageRequest) : Option String := do
  let named ← (namedSender R request.sender).toOption
  (filedUnder named request.sealedSender).toOption

/-- What a request makes the node accept. -/
def received : Request → Node → Option Received
  | .message body uuid, s => do
    let request ← P2PMessageRequest.read R body
    let _ ← (p2pMessage R request uuid s).value?
    let sender ← senderOf R request
    return ⟨sender, request.seq, request.ephemeral⟩
  | _, _ => none

/-- What the node accepts in a run. -/
abbrev receivedLog : List Request → Node → List Received :=
  outputs (Request.run R) (received R)

/-- No message is accepted twice in the run, and the numbers of each sender grow. -/
structure AntiReplay (ks : List Request) (s : Node) : Prop where
  once : ((receivedLog R ks s).map fun r => (r.sender, r.seq)).Nodup
  increasing : ∀ sender,
    (((receivedLog R ks s).filter fun r => r.sender = sender).map Received.seq).Pairwise (· < ·)

/-- The check on later messages does not see it: no row is stored, the row is not under an
address, or the rows are not under the address of the node. -/
def Unrecorded (user : User) (r : Received) : Prop :=
  r.ephemeral = true ∨ r.sender = "sealed" ∨ user.onionAddress = some ""

/-- No message that passes the checks has a number that an unrecorded one of its sender has
reached. -/
def Ordered (ks : List Request) (s : Node) : Prop :=
  ∀ done body uuid todo request user sender, ks = done ++ .message body uuid :: todo →
    P2PMessageRequest.read R body = some request →
    Passes R request uuid user sender (after (Request.run R) done s) →
      ∀ q ∈ receivedLog R done s, Unrecorded user q → q.sender = sender → q.seq < request.seq

end

/-! ## One request -/

variable {R : Runtime} {s : Node} {k : Request}

theorem antiReplay_iff_pairwise {ks : List Request} :
    AntiReplay R ks s ↔
      (receivedLog R ks s).Pairwise fun q r => q.sender = r.sender → q.seq < r.seq := by
  generalize hlog : receivedLog R ks s = log
  constructor
  · rintro ⟨-, hincreasing⟩
    rw [hlog] at hincreasing
    clear hlog
    induction log with
    | nil => exact List.Pairwise.nil
    | cons q log ih =>
      refine List.pairwise_cons.mpr ⟨?_, ih fun sender => ?_⟩
      · intro r hr hsender
        have hq := hincreasing q.sender
        rw [List.filter_cons_of_pos (by simp), List.map_cons, List.pairwise_cons] at hq
        exact hq.1 r.seq (List.mem_map_of_mem (List.mem_filter.mpr ⟨hr, by simp [hsender]⟩))
      · exact (hincreasing sender).sublist
          (((List.sublist_cons_self q log).filter _).map Received.seq)
  · intro hpairwise
    constructor
    · rw [hlog, List.nodup_iff_pairwise_ne, List.pairwise_map]
      refine hpairwise.imp ?_
      rintro q r hlt heq
      obtain ⟨hsender, hseq⟩ := Prod.mk.inj heq
      exact absurd hseq (hlt hsender).ne
    · intro sender
      rw [hlog, List.pairwise_map]
      refine (hpairwise.filter _).imp_of_mem ?_
      intro q r hq hr hlt
      have hq := of_decide_eq_true (List.mem_filter.mp hq).2
      have hr := of_decide_eq_true (List.mem_filter.mp hr).2
      exact hlt (hq.trans hr.symm)

theorem senderOf_of_passes {request : P2PMessageRequest} {uuid sender : String} {user : User}
    (h : Passes R request uuid user sender s) : senderOf R request = some sender := by
  obtain ⟨named, hnamed, hsender⟩ := h.filed
  rw [senderOf, hnamed]
  show (filedUnder named request.sealedSender).toOption = some sender
  rw [hsender]
  rfl

/-- A message is accepted exactly when it passes the checks. -/
theorem received_eq_some_iff {body : Json} {uuid : String} {r : Received} :
    received R (.message body uuid) s = some r ↔
      ∃ request user, P2PMessageRequest.read R body = some request ∧
        Passes R request uuid user r.sender s ∧ r.seq = request.seq ∧
        r.ephemeral = request.ephemeral := by
  simp only [received, Option.bind_eq_bind, Option.bind_eq_some_iff]
  constructor
  · rintro ⟨request, hread, answer, hanswer, sender, hsender, hr⟩
    obtain rfl := Option.some.inj hr
    refine ⟨request, ?_⟩
    rcases p2pMessage_cases (R := R) s request uuid with ⟨e, hrun, -⟩ | ⟨user, sender', s', -, hpasses, -⟩
    · rw [hrun] at hanswer
      cases hanswer
    · obtain rfl := Option.some.inj ((senderOf_of_passes hpasses).symm.trans hsender)
      exact ⟨user, hread, hpasses, rfl, rfl⟩
  · rintro ⟨request, user, hread, hpasses, hseq, hephemeral⟩
    rcases p2pMessage_cases (R := R) s request uuid with ⟨e, -, hnot⟩ | ⟨_, _, s', hrun, -⟩
    · exact absurd hpasses (hnot user r.sender)
    · refine ⟨request, hread, "delivered", by rw [hrun]; rfl, r.sender,
        senderOf_of_passes hpasses, ?_⟩
      rw [← hseq, ← hephemeral]
      rfl

/-- No request removes a row or changes whose it is and which number it has. -/
theorem row_step {id : String} {m : Message} (hm : s.messages.get? id = some m) :
    ∃ m', (k.run R s).state.messages.get? id = some m' ∧ m'.senderOnion = m.senderOnion ∧
      m'.recipientOnion = m.recipientOnion ∧ m'.sequenceNumber = m.sequenceNumber := by
  rcases (run_change (R := R) k s).1 with ⟨_, -, hmessages⟩ | ⟨-, -, -, hmessages⟩ |
    ⟨-, -, -, hmessages⟩ | ⟨-, -, hmessages⟩ | ⟨-, -, hmessages⟩ | ⟨-, -, hmessages⟩ |
    ⟨hfresh, -, hmessages⟩ | ⟨hmarked, -, hmessages⟩ <;> rw [hmessages]
  case file uuid new =>
    refine ⟨m, ?_, rfl, rfl, rfl⟩
    rw [Dict.get?_insert, if_neg, hm]
    rintro rfl
    exact Option.some_ne_none m (hm.symm.trans hfresh)
  case mark marked old =>
    rw [Dict.get?_insert]
    split_ifs with hid
    · subst hid
      obtain rfl := Option.some.inj (hm.symm.trans hmarked)
      exact ⟨_, rfl, rfl, rfl, rfl⟩
    · exact ⟨m, hm, rfl, rfl, rfl⟩
  all_goals exact ⟨m, hm, rfl, rfl, rfl⟩

/-- The row that the monotonic check reads for an accepted message. -/
def Recorded (user : User) (s : Node) (r : Received) : Prop :=
  ∃ id m, s.messages.get? id = some m ∧ m.senderOnion = r.sender ∧
    some m.recipientOnion = user.onionAddress ∧ m.sequenceNumber = r.seq

theorem Recorded.step {user : User} {r : Received} (h : Recorded user s r) :
    Recorded user (k.run R s).state r := by
  obtain ⟨id, m, hm, hsender, hrecipient, hseq⟩ := h
  obtain ⟨m', hm', hsender', hrecipient', hseq'⟩ := row_step (R := R) (k := k) hm
  exact ⟨id, m', hm', hsender'.trans hsender, by rw [hrecipient']; exact hrecipient,
    hseq'.trans hseq⟩

/-- A sender that is checked has an accepted contact of the node. -/
theorem Passes.contact {request : P2PMessageRequest} {uuid sender : String} {user : User}
    (h : Passes R request uuid user sender s) (hsender : sender ≠ "sealed") :
    ∃ id c, s.contact? user.onionAddress sender = some (id, c) ∧ c.status = .accepted := by
  have hchecks := h.checks
  unfold checkSender at hchecks
  rw [if_neg hsender, apply_bind, apply_get] at hchecks
  dsimp only at hchecks
  rcases hfound : s.contact? user.onionAddress sender with _ | ⟨id, c⟩
  · rw [hfound] at hchecks
    cases hchecks
  rw [hfound] at hchecks
  dsimp only at hchecks
  by_cases haccepted : c.status ≠ .accepted
  · rw [if_pos haccepted] at hchecks
    cases hchecks
  · exact ⟨id, c, rfl, not_not.mp haccepted⟩

/-- What is accepted is recorded, unless it is of the unrecorded kinds. -/
theorem recorded_of_received {r : Received} {user : User} (hr : received R k s = some r)
    (huser : s.users.head? = some user) :
    Unrecorded user r ∨ Recorded user (k.run R s).state r := by
  rcases k with _ | _ | ⟨body, uuid⟩ | _ | _ | _ | _ | _ | _ | _ <;> try cases hr
  obtain ⟨request, user', hread, hpasses, hseq, hephemeral⟩ := received_eq_some_iff.mp hr
  obtain rfl := Option.some.inj (huser.symm.trans hpasses.localUser)
  by_cases hunrecorded : Unrecorded user r
  · exact .inl hunrecorded
  obtain ⟨hnotEphemeral, hnotSealed, hnotEmpty⟩ : ¬ r.ephemeral = true ∧ r.sender ≠ "sealed" ∧
      user.onionAddress ≠ some "" := by simpa [Unrecorded] using hunrecorded
  refine .inr ?_
  rw [Request.run, state_parsed, hread]
  dsimp only
  rcases p2pMessage_cases (R := R) s request uuid with
    ⟨e, -, hnot⟩ | ⟨user', sender, s', hrun, hpasses', hmessages, -⟩
  · exact absurd hpasses (hnot user r.sender)
  obtain rfl := Option.some.inj (hpasses.localUser.symm.trans hpasses'.localUser)
  obtain rfl := Option.some.inj ((senderOf_of_passes hpasses).symm.trans (senderOf_of_passes hpasses'))
  rw [hrun]
  rcases hmessages with ⟨-, h⟩ | ⟨sentAt, hmessages, -⟩
  · exact absurd (hephemeral.trans h) hnotEphemeral
  refine ⟨uuid, messageRow user r.sender request sentAt, ?_, rfl, ?_, hseq.symm⟩
  · rw [Result.state_ok, hmessages, Dict.get?_insert, if_pos rfl]
  · -- the node has an address, since its contact is stored under one
    obtain ⟨_, c, hfound, -⟩ := hpasses.contact hnotSealed
    obtain ⟨-, howner, -⟩ := contact?_eq_some hfound
    show some (storedRecipient user) = user.onionAddress
    rw [storedRecipient, ← howner]
    have hne : c.ownerOnion ≠ "" := fun h => hnotEmpty (by rw [← howner, h])
    rw [truthy_of_ne hne, Option.getD_some]

/-- The monotonic check reads the rows of the sender. -/
theorem lastSeq_of_recorded {user : User} {r : Received} (h : Recorded user s r) :
    ∃ lastSeq, s.lastSeq r.sender user.onionAddress = some lastSeq ∧ r.seq ≤ lastSeq := by
  obtain ⟨id, m, hm, hsender, hrecipient, hseq⟩ := h
  have hmem : r.seq ∈ (s.messages.values.filter fun m =>
      m.senderOnion = r.sender ∧ some m.recipientOnion = user.onionAddress).map
        Message.sequenceNumber := by
    rw [← hseq]
    refine List.mem_map_of_mem (List.mem_filter.mpr ⟨?_, by simp [hsender, hrecipient]⟩)
    exact List.mem_map.mpr ⟨(id, m), Dict.mem_entries_iff.mpr hm, rfl⟩
  unfold Node.lastSeq
  rcases hmax : List.max? _ with _ | lastSeq
  · rw [List.max?_eq_none_iff] at hmax
    rw [hmax] at hmem
    cases hmem
  · exact ⟨lastSeq, rfl, (List.max?_eq_some_iff.mp hmax).2 _ hmem⟩

/-! ## Runs -/

theorem users_after (ks : List Request) (s : Node) :
    (after (Request.run R) ks s).users = s.users := by
  induction ks generalizing s with
  | nil => rfl
  | cons k ks ih => exact (ih _).trans (run_change k s).2

theorem recorded_after {user : User} (huser : s.users.head? = some user) {ks : List Request}
    {r : Received} (hr : r ∈ receivedLog R ks s) :
    Unrecorded user r ∨ Recorded user (after (Request.run R) ks s) r := by
  induction ks using List.reverseRecOn with
  | nil => cases hr
  | append_singleton ks k ih =>
    rw [receivedLog, outputs_append, List.mem_append] at hr
    rw [after_append]
    rcases hr with hearlier | hlast
    · exact (ih hearlier).imp_right Recorded.step
    · rw [outputs, outputs, List.append_nil, Option.mem_toList] at hlast
      exact recorded_of_received hlast (by rw [users_after, huser])

/-- Nothing is accepted twice, and the numbers of every sender grow, exactly when no message that
passes the checks has a number that an unrecorded one of its sender has reached. -/
theorem antiReplay_iff (R : Runtime) (ks : List Request) (s : Node) :
    AntiReplay R ks s ↔ Ordered R ks s := by
  rw [antiReplay_iff_pairwise, receivedLog, pairwise_outputs_iff]
  constructor
  · intro h done body uuid todo request user sender hks hread hpasses q hq _ hsender
    have hr : received R (.message body uuid) (after (Request.run R) done s) =
        some ⟨sender, request.seq, request.ephemeral⟩ :=
      received_eq_some_iff.mpr ⟨request, user, hread, hpasses, rfl, rfl⟩
    exact h done _ todo hks _ hr q hq hsender
  · rintro hordered done k todo hks r hr q hq hsender
    rcases k with _ | _ | ⟨body, uuid⟩ | _ | _ | _ | _ | _ | _ | _ <;> try cases hr
    obtain ⟨request, user, hread, hpasses, hseq, -⟩ := received_eq_some_iff.mp hr
    rw [hseq]
    have huser : s.users.head? = some user := by
      rw [← hpasses.localUser, users_after]
    rcases recorded_after huser hq with hunrecorded | hrecorded
    · exact hordered done body uuid todo request user r.sender hks hread hpasses q hq hunrecorded
        hsender
    by_cases hunrecorded : Unrecorded user q
    · exact hordered done body uuid todo request user r.sender hks hread hpasses q hq hunrecorded
        hsender
    -- the row of the earlier message bounds the number of this one
    obtain ⟨lastSeq, hlast, hle⟩ := lastSeq_of_recorded hrecorded
    have hnotSealed : r.sender ≠ "sealed" := fun h => hunrecorded (.inr (.inl (hsender.trans h)))
    rcases checkSender_cases (after (Request.run R) done s) user r.sender request.seq with
      ⟨e, hcheck⟩ | ⟨-, hbelow⟩
    · cases hcheck.symm.trans hpasses.checks
    · exact lt_of_le_of_lt hle (hbelow hnotSealed lastSeq (hsender ▸ hlast))

/-! ## A replayed ephemeral message -/

/-- A node whose only contact is accepted. -/
def pairedNode : Node where
  users    := [⟨"alice", some "bbbbbbbbbbbbbbbb.onion"⟩]
  profiles := ["default"]
  contacts := Dict.empty.insert 1 ⟨"bbbbbbbbbbbbbbbb.onion", "aaaaaaaaaaaaaaaa.onion", none, none,
    none, .accepted, false, "default", none, true, none⟩
  messages := .empty
  bundles  := .empty
  notices  := []
  tasks    := []

def ephemeralMessage : Json :=
  .obj [("sender", .str "aaaaaaaaaaaaaaaa.onion"), ("iv", .str "iv"), ("ciphertext", .str "c"),
    ("seq", .int 7), ("timestamp", .int 1700000000000), ("ephemeral", .bool true)]

/-- The same ephemeral message is accepted as often as it is sent. -/
theorem ephemeral_replayed :
    ¬ AntiReplay asciiRuntime [.message ephemeralMessage "u1", .message ephemeralMessage "u2"]
      pairedNode := by
  rintro ⟨honce, -⟩
  have hlog : receivedLog asciiRuntime
      [.message ephemeralMessage "u1", .message ephemeralMessage "u2"] pairedNode =
        [⟨"aaaaaaaaaaaaaaaa.onion", 7, true⟩, ⟨"aaaaaaaaaaaaaaaa.onion", 7, true⟩] := by
    decide +kernel
  rw [hlog] at honce
  exact absurd honce (by decide)

end AnonyMus.P2p
