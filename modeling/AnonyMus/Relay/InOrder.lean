import AnonyMus.Lib.Shuffle
import AnonyMus.Lib.Simulation
import AnonyMus.Relay.InMemory

/-!
# Relay server — order without Redis

All socket handlers of `transports/relay/server.py` on one worker without Redis,
one after the other. The rate limiter may drop any call. A connection has a
socket id of its own, and its `connect` is the first that is heard of it.

* `Event`, `handle` — the events and their handlers, with every `emit`;
* `handlePush_sent` — a push that the limiter lets through does what
  `handlePushQueue` does;
* `Effect`, `handle_effect` — what an event can do to a queue;
* `relay_in_order` — the payloads of a queue are emitted in the order in which
  they were accepted, without the oldest ones that did not fit the buffer.
-/

namespace AnonyMus.Relay.InMemory

open EStateM (after outputs)

/-- An `emit` of the server: to the socket that made the call or, for `live`, to
the room of the queue. -/
inductive Emission (Payload : Type)
  | queueCreated (sid queueId : String)
  | queueRejoined (sid queueId : String)
  | pushQueueError (sid queueId error : String)
  /-- A `queue_payload` of `flush_offline_queue`. -/
  | flushed (sid queueId : String) (payload : Payload)
  /-- The `queue_payload` of `push_queue`. -/
  | live (queueId : String) (payload : Payload)

/-- The events of the sockets; `limited` tells the calls that the rate limiter
drops, `drawn` is the UUID that is drawn. -/
inductive Event (Payload : Type)
  | connect (sid : String)
  | createQueue (sid : String) (limited : Bool) (drawn : String)
  | rejoinQueue (sid : String) (limited : Bool) (queueId : String)
  | registerPeer (sid : String) (myQueue peerQueue : Option String)
  | pushQueue (sid : String) (limited : Bool) (queueId : String) (payload : Payload)
  | disconnect (sid : String)

variable {Payload : Type}

def Event.sid : Event Payload → String
  | .connect sid | .createQueue sid _ _ | .rejoinQueue sid _ _ | .registerPeer sid _ _
  | .pushQueue sid _ _ _ | .disconnect sid => sid

/-- The socket id that a connection is given. -/
def Event.connecting : Event Payload → Option String
  | .connect sid => some sid
  | _ => none

/-- The payloads of a queue among the emissions. -/
def payloadOf (q : String) : Emission Payload → Option Payload
  | .flushed _ queueId payload => if queueId = q then some payload else none
  | .live queueId payload => if queueId = q then some payload else none
  | _ => none

/-- What the JSON of a payload and its size say: falsy, over 100 KiB, ephemeral. -/
structure Reading (Payload : Type) where
  falsy     : Payload → Bool
  large     : Payload → Bool
  ephemeral : Payload → Bool

namespace Server

variable (s : Server Payload)

/-! ## Handlers -/

/-- What is sent to the calling socket, as an `emit`. -/
def direct : String × Outgoing Payload → Emission Payload
  | (sid, .queueCreated queueId) => .queueCreated sid queueId
  | (sid, .queuePayload queueId payload) => .flushed sid queueId payload
  | (sid, .pushQueueError queueId error) => .pushQueueError sid queueId error

/-- What `create_queue` and `rejoin_queue` have in common. -/
def takeOver (sid queueId : String) : Server Payload × Sent Payload :=
  let s := ((s.addQueueOwner queueId sid).addQueueCreator queueId sid).joinRoom queueId sid
  s.flushOfflineQueue queueId sid

def handleRejoin (sid queueId : String) : Server Payload × List (Emission Payload) :=
  let queueId := strip queueId
  if queueId = "" then (s, [])
  else
    let (s, flushed) := s.takeOver sid queueId
    (s, .queueRejoined sid queueId :: flushed.map direct)

/-- The push passes every check of the handler. -/
def Accepts (R : Reading Payload) (sid queueId : String) (payload : Payload) : Prop :=
  queueId ≠ "" ∧ R.falsy payload = false ∧ R.large payload = false ∧ s.isQueueOwner queueId sid

instance (R : Reading Payload) (sid queueId : String) (payload : Payload) :
    Decidable (s.Accepts R sid queueId payload) :=
  inferInstanceAs (Decidable (_ ∧ _ ∧ _ ∧ _))

def handlePush (R : Reading Payload) (sid queueId : String) (payload : Payload) :
    Server Payload × List (Emission Payload) :=
  if queueId = "" ∨ R.falsy payload then (s, [])
  else if R.large payload then (s, [])
  else if ¬ s.isQueueOwner queueId sid then (s, [])
  else if ¬ s.isRecipientOnline queueId then
    if R.ephemeral payload then (s, [])
    else (s.enqueueOffline queueId payload,
      [.pushQueueError sid queueId "recipient_offline_queued"])
  else (s, [.live queueId payload])

def handle (R : Reading Payload) : Event Payload → Server Payload × List (Emission Payload)
  | .connect sid => (s.handleConnect sid, [])
  | .createQueue sid limited drawn =>
    if limited then (s, [])
    else ((s.handleCreateQueue sid drawn).1, (s.handleCreateQueue sid drawn).2.map direct)
  | .rejoinQueue sid limited queueId => if limited then (s, []) else s.handleRejoin sid queueId
  | .registerPeer sid myQueue peerQueue => (s.handleRegisterPeer sid myQueue peerQueue, [])
  | .pushQueue sid limited queueId payload =>
    if limited then (s, []) else s.handlePush R sid queueId payload
  | .disconnect sid => (s.handleDisconnect sid, [])

end Server

open Server

section

variable (R : Reading Payload)

def act (e : Event Payload) : EStateM Empty (Server Payload) (List (Emission Payload)) :=
  modifyGet fun s => ((s.handle R e).2, (s.handle R e).1)

/-- The events of sockets: each connects before anything else is heard of it. -/
def Sessions (events : List (Event Payload)) : Prop :=
  events.Pairwise fun e' e => e.connecting ≠ some e'.sid

instance (events : List (Event Payload)) : Decidable (Sessions events) :=
  inferInstanceAs (Decidable (List.Pairwise _ events))

/-! ## What happens to a queue -/

/-- The payloads of queue `q` that an event emits. -/
def emittedBy (q : String) (e : Event Payload) (s : Server Payload) : List Payload :=
  (s.handle R e).2.filterMap (payloadOf q)

/-- The payload that a push to queue `q` brings in. -/
def acceptedBy (q : String) (e : Event Payload) (s : Server Payload) : List Payload :=
  match e with
  | .pushQueue sid limited queueId payload =>
    if limited = false ∧ queueId = q ∧ s.Accepts R sid queueId payload then [payload] else []
  | _ => []

/-- The oldest payloads buffered for queue `q` that a push which is buffered as well
leaves no room for. -/
def trimmedBy (q : String) (e : Event Payload) (s : Server Payload) : List Payload :=
  match e with
  | .pushQueue sid limited queueId payload =>
    if limited = false ∧ queueId = q ∧ s.Accepts R sid queueId payload ∧
        s.isRecipientOnline q = false ∧ R.ephemeral payload = false then
      (s.offlineQueue q ++ [payload]).take ((s.offlineQueue q).length + 1 - maxOfflineQueue)
    else []
  | _ => []

/-- What an event can do to a queue: nothing, flush its buffer, or take in a
payload, which is emitted while the recipient is online and otherwise buffered
or, if it is ephemeral, dropped. -/
inductive Effect (ephemeral : Payload → Bool) (online : Bool) (buffer : List Payload) :
    (emitted accepted trimmed buffer' : List Payload) → Prop
  | idle : Effect ephemeral online buffer [] [] [] buffer
  | flush : Effect ephemeral online buffer buffer [] [] []
  | live (p : Payload) (honline : online = true) :
      Effect ephemeral online buffer [p] [p] [] buffer
  | drop (p : Payload) (hp : ephemeral p = true) : Effect ephemeral online buffer [] [p] [] buffer
  | keep (p : Payload) (honline : online = false) (hp : ephemeral p = false) :
      Effect ephemeral online buffer [] [p]
        ((buffer ++ [p]).take (buffer.length + 1 - maxOfflineQueue))
        ((buffer ++ [p]).drop (buffer.length + 1 - maxOfflineQueue))

variable {R}

/-- Taking over a queue flushes it and leaves the other queues alone. -/
theorem takeOver_effect {online : Bool} (s : Server Payload) (sid queueId q : String)
    {emission : Emission Payload} (hno : payloadOf q emission = none) :
    Effect R.ephemeral online (s.offlineQueue q)
      ((emission :: (s.takeOver sid queueId).2.map direct).filterMap (payloadOf q)) [] []
      ((s.takeOver sid queueId).1.offlineQueue q) := by
  -- a flush of this queue sends its payloads in their order, a flush of another sends
  -- none of them
  have hflushed : ∀ payloads : List Payload,
      (payloads.map fun payload => (.flushed sid queueId payload : Emission Payload)).filterMap
        (payloadOf q) = if queueId = q then payloads else [] := by
    intro payloads
    induction payloads with
    | nil => simp
    | cons payload payloads ih =>
      rw [List.map_cons, List.filterMap_cons, ih]
      by_cases hq : queueId = q <;> simp [payloadOf, hq]
  have hsent : (emission :: (s.takeOver sid queueId).2.map direct).filterMap (payloadOf q) =
      if queueId = q then s.offlineQueue queueId else [] := by
    rw [List.filterMap_cons, hno, ← hflushed, takeOver, flushOfflineQueue, List.map_map]
    rfl
  -- the buffer that was sent is empty afterwards, in the same handler
  have hbuffer : (s.takeOver sid queueId).1.offlineQueue q =
      if queueId = q then [] else s.offlineQueue q := by
    by_cases hq : queueId = q
    · subst hq
      rw [if_pos rfl]
      exact Function.update_self ..
    · rw [if_neg hq]
      exact Function.update_of_ne (Ne.symm hq) ..
  rw [hsent, hbuffer]
  by_cases hq : queueId = q
  · subst hq
    rw [if_pos rfl, if_pos rfl]
    exact .flush
  · rw [if_neg hq, if_neg hq]
    exact .idle

theorem handleRegisterPeer_offlineQueue (s : Server Payload) (sid : String)
    (myQueue peerQueue : Option String) :
    (s.handleRegisterPeer sid myQueue peerQueue).offlineQueue = s.offlineQueue := by
  unfold handleRegisterPeer
  repeat' first | rfl | split

/-- What becomes of a push. -/
theorem handlePush_eq (R : Reading Payload) (s : Server Payload) (sid queueId : String)
    (payload : Payload) :
    s.handlePush R sid queueId payload =
      if s.Accepts R sid queueId payload then
        if s.isRecipientOnline queueId then (s, [.live queueId payload])
        else if R.ephemeral payload then (s, [])
        else (s.enqueueOffline queueId payload,
          [.pushQueueError sid queueId "recipient_offline_queued"])
      else (s, []) := by
  -- the five guards of the handler, in its order
  by_cases hacc : s.Accepts R sid queueId payload
  · obtain ⟨hq, hfalsy, hlarge, howner⟩ := hacc
    have hacc : s.Accepts R sid queueId payload := ⟨hq, hfalsy, hlarge, howner⟩
    rw [if_pos hacc]
    cases honline : s.isRecipientOnline queueId <;>
      simp [handlePush, hq, hfalsy, hlarge, howner, honline]
  · rw [if_neg hacc, handlePush]
    simp only [Accepts, not_and] at hacc
    by_cases hq : queueId = "" ∨ R.falsy payload = true
    · rw [if_pos hq]
    · rw [if_neg hq]
      simp only [not_or, Bool.not_eq_true] at hq
      by_cases hlarge : R.large payload = true
      · rw [if_pos hlarge]
      · rw [if_neg hlarge, if_pos (hacc hq.1 hq.2 (by simpa using hlarge))]

/-- The sockets that an `emit` of `push_queue` reaches. -/
def reach (rooms : String → List String) : Emission Payload → Sent Payload
  | .live queueId payload =>
    (rooms queueId).map fun member => (member, .queuePayload queueId payload)
  | .pushQueueError sid queueId error => [(sid, .pushQueueError queueId error)]
  | _ => []

/-- A push as `handlePushQueue` has it, once the limiter lets it through: the same
state, and the same payloads at the sockets of the room. -/
theorem handlePush_sent (R : Reading Payload) (s : Server Payload) (sid queueId : String)
    {payload : Payload} (hfalsy : R.falsy payload = false) :
    (s.handlePush R sid queueId payload).1 =
        { (s.handlePushQueue R.large R.ephemeral sid queueId payload).1 with
          refused := s.refused } ∧
      (s.handlePushQueue R.large R.ephemeral sid queueId payload).2 =
        (s.handlePush R sid queueId payload).2.flatMap (reach s.rooms) := by
  rw [handlePush_eq]
  by_cases hacc : s.Accepts R sid queueId payload
  · obtain ⟨hq, -, hlarge, howner⟩ := id hacc
    have hform : ¬ (queueId = "" ∨ R.large payload = true) := by simp [hq, hlarge]
    have hpush : s.handlePushQueue R.large R.ephemeral sid queueId payload =
        if s.isRecipientOnline queueId then
          (s, (s.rooms queueId).map fun member => (member, .queuePayload queueId payload))
        else if R.ephemeral payload then (s, [])
        else (s.enqueueOffline queueId payload,
          [(sid, .pushQueueError queueId "recipient_offline_queued")]) := by
      simp only [handlePushQueue, if_pos howner, if_neg hform]
      exact if_neg (not_not_intro howner)
    rw [if_pos hacc, hpush]
    cases s.isRecipientOnline queueId with
    | true => simp [reach]
    | false => cases R.ephemeral payload <;> simp [reach, enqueueOffline]
  · rw [if_neg hacc, handlePushQueue]
    by_cases hform : queueId = "" ∨ R.large payload = true
    · dsimp only
      rw [if_pos hform]
      exact ⟨rfl, rfl⟩
    · -- what remains of the checks is the owner's
      have howner : ¬ s.isQueueOwner queueId sid := by
        intro howner
        simp only [not_or, Bool.not_eq_true] at hform
        exact hacc ⟨hform.1, hfalsy, hform.2, howner⟩
      dsimp only
      rw [if_neg hform, if_pos (by exact howner)]
      exact ⟨rfl, rfl⟩

/-- A push to another queue, or one that is not accepted, does nothing to queue `q`;
otherwise the payload is emitted, buffered or dropped. -/
theorem handlePush_effect (s : Server Payload) (sid queueId q : String) (payload : Payload) :
    Effect R.ephemeral (s.isRecipientOnline q) (s.offlineQueue q)
      (emittedBy R q (.pushQueue sid false queueId payload) s)
      (acceptedBy R q (.pushQueue sid false queueId payload) s)
      (trimmedBy R q (.pushQueue sid false queueId payload) s)
      ((s.handlePush R sid queueId payload).1.offlineQueue q) := by
  simp only [emittedBy, acceptedBy, trimmedBy, handle, handlePush_eq, Bool.false_eq_true,
    if_false, true_and]
  by_cases hacc : s.Accepts R sid queueId payload
  swap
  · simp only [hacc, false_and, and_false, if_false]
    exact .idle
  by_cases hq : queueId = q
  · subst hq
    cases honline : s.isRecipientOnline queueId with
    | true =>
      simp only [hacc, true_and, if_true, Bool.true_eq_false, false_and, and_false, if_false,
        List.filterMap_cons, payloadOf, List.filterMap_nil]
      exact .live payload rfl
    | false =>
      cases hephemeral : R.ephemeral payload with
      | true =>
        simp only [hacc, true_and, if_true, Bool.true_eq_false, and_false, if_false,
          Bool.false_eq_true, List.filterMap_nil]
        exact .drop payload hephemeral
      | false =>
        simp only [hacc, if_true, and_true, if_false, Bool.false_eq_true, List.filterMap_cons,
          payloadOf, List.filterMap_nil, enqueueOffline, Function.update_self, List.length_append,
          List.length_singleton]
        exact .keep payload rfl hephemeral
  · simp only [hacc, hq, false_and, if_false, if_true]
    -- whatever becomes of the push, it stays within its own queue
    have hother : (s.enqueueOffline queueId payload).offlineQueue q = s.offlineQueue q :=
      Function.update_of_ne (Ne.symm hq) ..
    split
    · simp only [List.filterMap_cons, payloadOf, if_neg hq, List.filterMap_nil]
      exact .idle
    · split
      · exact .idle
      · simp only [List.filterMap_cons, payloadOf, List.filterMap_nil, hother]
        exact .idle

theorem handle_effect (e : Event Payload) (s : Server Payload) (q : String) :
    Effect R.ephemeral (s.isRecipientOnline q) (s.offlineQueue q) (emittedBy R q e s)
      (acceptedBy R q e s) (trimmedBy R q e s) ((s.handle R e).1.offlineQueue q) := by
  cases e with
  | connect sid => exact .idle
  | disconnect sid => exact .idle
  | registerPeer sid myQueue peerQueue =>
    rw [handle, handleRegisterPeer_offlineQueue]
    exact .idle
  -- `create_queue` and `rejoin_queue` take the queue over, unless they are rate limited
  | createQueue sid limited drawn =>
    cases limited with
    | true => exact .idle
    | false => exact takeOver_effect _ sid drawn q rfl
  | rejoinQueue sid limited queueId =>
    cases limited with
    | true => exact .idle
    | false =>
      simp only [emittedBy, handle, handleRejoin, Bool.false_eq_true, if_false]
      split
      · exact .idle
      · exact takeOver_effect s sid _ q rfl
  | pushQueue sid limited queueId payload =>
    cases limited with
    -- a rate limited push returns before it reads its data
    | true =>
      simp only [emittedBy, acceptedBy, trimmedBy, handle, Bool.true_eq_false, false_and, if_true,
        if_false, List.filterMap_nil]
      exact .idle
    | false => exact handlePush_effect s sid queueId q payload

/-! ## Who is online -/

theorem isRecipientOnline_iff {s : Server Payload} {q : String} :
    s.isRecipientOnline q = true ↔
      ∃ sid, s.queueCreators q = some sid ∧ sid ∈ s.socketConnectTimes := by
  unfold isRecipientOnline
  cases s.queueCreators q <;> simp

/-- Neither a push nor a registration changes who created what or is connected. -/
theorem handlePush_frame (s : Server Payload) (sid queueId : String) (payload : Payload) :
    (s.handlePush R sid queueId payload).1.queueCreators = s.queueCreators ∧
      (s.handlePush R sid queueId payload).1.socketConnectTimes = s.socketConnectTimes := by
  rw [handlePush_eq]
  repeat' first | exact ⟨rfl, rfl⟩ | split

theorem handleRegisterPeer_frame (s : Server Payload) (sid : String)
    (myQueue peerQueue : Option String) :
    (s.handleRegisterPeer sid myQueue peerQueue).queueCreators = s.queueCreators ∧
      (s.handleRegisterPeer sid myQueue peerQueue).socketConnectTimes = s.socketConnectTimes := by
  unfold handleRegisterPeer
  repeat' first | exact ⟨rfl, rfl⟩ | split

/-- A queue's creator is the one it had, or the socket that makes the call. -/
theorem creator_handle {e : Event Payload} {s : Server Payload} {q c : String}
    (h : (s.handle R e).1.queueCreators q = some c) : s.queueCreators q = some c ∨ c = e.sid := by
  -- only the two handlers that take a queue over write its creator
  have htake : ∀ (s : Server Payload) (sid queueId : String),
      (s.takeOver sid queueId).1.queueCreators q = some c →
        s.queueCreators q = some c ∨ c = sid := by
    intro s sid queueId h
    by_cases hq : q = queueId
    · subst hq
      have hself : (s.takeOver sid q).1.queueCreators q = some sid := Function.update_self ..
      rw [hself] at h
      exact Or.inr (Option.some.inj h).symm
    · have hother : (s.takeOver sid queueId).1.queueCreators q = s.queueCreators q :=
        Function.update_of_ne hq ..
      exact Or.inl (hother ▸ h)
  cases e with
  | connect sid => exact Or.inl h
  | registerPeer sid myQueue peerQueue =>
    rw [handle, (handleRegisterPeer_frame s sid myQueue peerQueue).1] at h
    exact Or.inl h
  -- a disconnect deletes the queues of the socket
  | disconnect sid =>
    simp only [handle, handleDisconnect] at h
    split at h
    · cases h
    · exact Or.inl h
  | createQueue sid limited drawn =>
    cases limited with
    | true => exact Or.inl h
    | false => exact htake { s with drawn := s.drawn + 1 } sid drawn h
  | rejoinQueue sid limited queueId =>
    cases limited with
    | true => exact Or.inl h
    | false =>
      simp only [handle, handleRejoin, Bool.false_eq_true, if_false] at h
      split at h
      · exact Or.inl h
      · exact htake s sid _ h
  | pushQueue sid limited queueId payload =>
    cases limited with
    | true => exact Or.inl h
    | false =>
      simp only [handle, Bool.false_eq_true, if_false, (handlePush_frame s _ _ _).1] at h
      exact Or.inl h

/-- The recipient of a queue comes online with its buffer flushed, or because its
creator connects. -/
theorem online_handle {e : Event Payload} {s : Server Payload} {q : String}
    (h : (s.handle R e).1.isRecipientOnline q = true) :
    s.isRecipientOnline q = true ∨ (s.handle R e).1.offlineQueue q = [] ∨
      ∃ sid, e = .connect sid ∧ s.queueCreators q = some sid := by
  -- a takeover flushes the queue that it brings online
  have htake : ∀ (s : Server Payload) (sid queueId : String),
      (s.takeOver sid queueId).1.isRecipientOnline q = true →
        s.isRecipientOnline q = true ∨ (s.takeOver sid queueId).1.offlineQueue q = [] := by
    intro s sid queueId h
    by_cases hq : q = queueId
    · subst hq
      exact Or.inr (Function.update_self ..)
    · left
      obtain ⟨c, hc, hmem⟩ := isRecipientOnline_iff.mp h
      have hother : (s.takeOver sid queueId).1.queueCreators q = s.queueCreators q :=
        Function.update_of_ne hq ..
      exact isRecipientOnline_iff.mpr ⟨c, hother ▸ hc, hmem⟩
  cases e with
  | connect sid =>
    -- a new socket is online, which matters for the queues it created before
    obtain ⟨c, hc, hmem⟩ := isRecipientOnline_iff.mp h
    rcases List.mem_insert_iff.mp hmem with rfl | hmem
    · exact Or.inr (Or.inr ⟨c, rfl, hc⟩)
    · exact Or.inl (isRecipientOnline_iff.mpr ⟨c, hc, hmem⟩)
  | registerPeer sid myQueue peerQueue =>
    obtain ⟨hcreators, htimes⟩ := handleRegisterPeer_frame s sid myQueue peerQueue
    rw [handle, isRecipientOnline_iff, hcreators, htimes, ← isRecipientOnline_iff] at h
    exact Or.inl h
  | disconnect sid =>
    obtain ⟨c, hc, hmem⟩ := isRecipientOnline_iff.mp h
    simp only [handle, handleDisconnect] at hc hmem
    split at hc
    · cases hc
    · exact Or.inl (isRecipientOnline_iff.mpr ⟨c, hc, (List.mem_filter.mp hmem).1⟩)
  | createQueue sid limited drawn =>
    cases limited with
    | true => exact Or.inl h
    | false => exact (htake { s with drawn := s.drawn + 1 } sid drawn h).imp_right Or.inl
  | rejoinQueue sid limited queueId =>
    cases limited with
    | true => exact Or.inl h
    | false =>
      simp only [handle, handleRejoin, Bool.false_eq_true, if_false] at h ⊢
      split at h
      case isTrue => exact Or.inl h
      case isFalse hq =>
        rw [if_neg hq]
        exact (htake s sid _ h).imp_right Or.inl
  | pushQueue sid limited queueId payload =>
    cases limited with
    | true => exact Or.inl h
    | false =>
      obtain ⟨hcreators, htimes⟩ := handlePush_frame (R := R) s sid queueId payload
      simp only [handle, Bool.false_eq_true, if_false] at h
      rw [isRecipientOnline_iff, hcreators, htimes, ← isRecipientOnline_iff] at h
      exact Or.inl h

/-! ## Runs -/

/-- What holds of the server after the events `done`: creators are sockets that
were heard of, no online recipient has anything buffered, and nothing ephemeral
is buffered. -/
structure Kept (R : Reading Payload) (done : List (Event Payload)) (s : Server Payload) : Prop where
  creators : ∀ q sid, s.queueCreators q = some sid → ∃ e ∈ done, e.sid = sid
  offline  : ∀ q, s.isRecipientOnline q = true → s.offlineQueue q = []
  lasting  : ∀ q, ∀ p ∈ s.offlineQueue q, R.ephemeral p = false

theorem Kept.init : Kept R [] (.init : Server Payload) where
  creators _ _ h := by cases h
  offline _ _ := rfl
  lasting _ _ h := by cases h

theorem Kept.step {done : List (Event Payload)} {s : Server Payload} (h : Kept R done s)
    {e : Event Payload} (hfresh : ∀ e' ∈ done, e.connecting ≠ some e'.sid) :
    Kept R (done ++ [e]) (s.handle R e).1 where
  creators q sid hq := by
    rcases creator_handle hq with hq | rfl
    · obtain ⟨e', hmem, he'⟩ := h.creators q sid hq
      exact ⟨e', List.mem_append_left _ hmem, he'⟩
    · exact ⟨e, by simp, rfl⟩
  offline q hq := by
    rcases online_handle hq with honline | hempty | ⟨sid, he, hcreator⟩
    · -- nothing is buffered for a recipient that was online before
      have heffect := handle_effect (R := R) e s q
      rw [h.offline q honline] at heffect
      generalize emittedBy R q e s = emitted, acceptedBy R q e s = accepted,
        trimmedBy R q e s = trimmed, (s.handle R e).1.offlineQueue q = buffer at heffect ⊢
      cases heffect with
      | keep p hoff => rw [honline] at hoff; cases hoff
      | _ => rfl
    · exact hempty
    · obtain ⟨e', hmem, he'⟩ := h.creators q sid hcreator
      exact absurd (by rw [he, he']; rfl) (hfresh e' hmem)
  lasting q p hp := by
    have heffect := handle_effect (R := R) e s q
    generalize emittedBy R q e s = emitted, acceptedBy R q e s = accepted,
      trimmedBy R q e s = trimmed, (s.handle R e).1.offlineQueue q = buffer at heffect hp
    cases heffect with
    | flush => cases hp
    | keep p' _ hp' =>
      rcases List.mem_append.mp (List.mem_of_mem_drop hp) with hp | hp
      · exact h.lasting q p hp
      · rw [List.mem_singleton.mp hp, hp']
    | _ => exact h.lasting q p hp

variable (R) in
/-- What `f` collects over the events of a run. -/
def gathered (f : Event Payload → Server Payload → List Payload) (events : List (Event Payload)) :
    List Payload :=
  (outputs (act R) (fun e s => some (f e s)) events .init).flatten

theorem gathered_append_singleton (f : Event Payload → Server Payload → List Payload)
    (done : List (Event Payload)) (e : Event Payload) :
    gathered R f (done ++ [e]) = gathered R f done ++ f e (after (act R) done .init) := by
  rw [gathered, EStateM.outputs_append, List.flatten_append]
  simp [gathered, outputs]

theorem act_state (e : Event Payload) (s : Server Payload) :
    (act R e s).state = (s.handle R e).1 := rfl

theorem Sessions.of_append {done todo : List (Event Payload)} (h : Sessions (done ++ todo)) :
    Sessions done :=
  (List.pairwise_append.mp h).1

theorem kept_after {events : List (Event Payload)} (h : Sessions events) :
    Kept R events (after (act R) events .init) := by
  induction events using List.reverseRecOn with
  | nil => exact Kept.init
  | append_singleton done e ih =>
    rw [EStateM.after_append]
    refine (ih h.of_append).step fun e' he' => ?_
    exact (List.pairwise_append.mp h).2.2 e' he' e (List.mem_singleton_self e)

/-- Live payloads go to online recipients, and what is flushed was buffered. -/
def Emission.Fits (s : Server Payload) : Emission Payload → Prop
  | .live q _ => s.isRecipientOnline q = true
  | .flushed _ q p => p ∈ s.offlineQueue q
  | _ => True

theorem fits_takeOver (s : Server Payload) (sid queueId : String) :
    ∀ em ∈ (s.takeOver sid queueId).2.map direct, em.Fits s := by
  simp only [takeOver, flushOfflineQueue, List.map_map, List.forall_mem_map]
  intro p hp
  exact hp

theorem fits_handle (e : Event Payload) (s : Server Payload) :
    ∀ em ∈ (s.handle R e).2, em.Fits s := by
  cases e with
  | connect sid => exact List.forall_mem_nil _
  | registerPeer sid myQueue peerQueue => exact List.forall_mem_nil _
  | disconnect sid => exact List.forall_mem_nil _
  -- the two handlers that take over emit first to the caller, then the buffer
  | createQueue sid limited drawn =>
    cases limited with
    | true => exact List.forall_mem_nil _
    | false =>
      have htake := fits_takeOver { s with drawn := s.drawn + 1 } sid drawn
      exact List.forall_mem_cons.mpr ⟨trivial, htake⟩
  | rejoinQueue sid limited queueId =>
    cases limited with
    | true => exact List.forall_mem_nil _
    | false =>
      simp only [handle, handleRejoin, Bool.false_eq_true, if_false]
      split
      · exact List.forall_mem_nil _
      · exact List.forall_mem_cons.mpr ⟨trivial, fits_takeOver s sid _⟩
  | pushQueue sid limited queueId payload =>
    cases limited with
    | true => exact List.forall_mem_nil _
    | false =>
      simp only [handle, handlePush_eq, Bool.false_eq_true, if_false]
      split
      -- what is accepted is emitted to an online creator only; otherwise its caller is
      -- told
      case isTrue =>
        split
        case isTrue honline => exact List.forall_mem_singleton.mpr honline
        case isFalse =>
          split
          · exact List.forall_mem_nil _
          · exact List.forall_mem_singleton.mpr trivial
      case isFalse => exact List.forall_mem_nil _

/-- The payloads that are not ephemeral. -/
def Reading.lasting (R : Reading Payload) (ps : List Payload) : List Payload :=
  ps.filter fun p => !R.ephemeral p

/-- What was accepted ends with what is buffered; the rest of it was emitted or
trimmed, in its order. -/
theorem split_after {events : List (Event Payload)} (h : Sessions events) (q : String) :
    ∃ settled, R.lasting (gathered R (acceptedBy R q) events) =
        settled ++ (after (act R) events .init).offlineQueue q ∧
      Shuffle (R.lasting (gathered R (emittedBy R q) events)) (gathered R (trimmedBy R q) events)
        settled := by
  induction events using List.reverseRecOn with
  | nil => exact ⟨[], rfl, .nil⟩
  | append_singleton done e ih =>
    obtain ⟨settled, haccepted, hshuffle⟩ := ih h.of_append
    have hkept := kept_after (R := R) h.of_append
    have heffect := handle_effect (R := R) e (after (act R) done .init) q
    rw [EStateM.after_append, EStateM.after_cons, EStateM.after_nil, act_state]
    simp only [Reading.lasting] at haccepted hshuffle
    simp only [gathered_append_singleton, Reading.lasting, List.filter_append]
    rw [haccepted]
    have hbuffer := hkept.lasting q
    have hidle := hkept.offline q
    generalize (after (act R) done .init).offlineQueue q = buffer,
      emittedBy R q e (after (act R) done .init) = emitted,
      acceptedBy R q e (after (act R) done .init) = accepted,
      trimmedBy R q e (after (act R) done .init) = trimmed,
      ((after (act R) done .init).handle R e).1.offlineQueue q = buffer',
      (after (act R) done .init).isRecipientOnline q = online at *
    cases heffect with
    | idle => exact ⟨settled, by simp, by simpa using hshuffle⟩
    | flush =>
      refine ⟨settled ++ buffer, by simp, ?_⟩
      have hall : buffer.filter (fun p => !R.ephemeral p) = buffer :=
        List.filter_eq_self.mpr fun p hp => by simp [hbuffer p hp]
      rw [hall, List.append_nil]
      exact hshuffle.append_left buffer
    | live p honline =>
      rw [hidle honline] at haccepted ⊢
      refine ⟨settled ++ [p].filter (fun p => !R.ephemeral p), by simp, ?_⟩
      rw [List.append_nil]
      exact hshuffle.append_left _
    | drop p hp => exact ⟨settled, by simp [hp], by simpa using hshuffle⟩
    | keep p _ hp =>
      -- what is trimmed comes from the front of the buffer
      refine ⟨settled ++ (buffer ++ [p]).take (buffer.length + 1 - maxOfflineQueue), ?_, ?_⟩
      · rw [List.append_assoc, List.append_assoc, List.take_append_drop]
        simp [hp]
      · rw [List.filter_nil, List.append_nil]
        exact hshuffle.append_right _

/-- What is ephemeral is emitted only when it is accepted. -/
theorem ephemeral_after {events : List (Event Payload)} (h : Sessions events) (q : String) :
    ((gathered R (emittedBy R q) events).filter R.ephemeral).Sublist
      ((gathered R (acceptedBy R q) events).filter R.ephemeral) := by
  -- a buffer never holds an ephemeral payload, so only a live push can emit one
  induction events using List.reverseRecOn with
  | nil => exact .slnil
  | append_singleton done e ih =>
    have hbuffer := (kept_after (R := R) h.of_append).lasting q
    have heffect := handle_effect (R := R) e (after (act R) done .init) q
    simp only [gathered_append_singleton, List.filter_append]
    refine (ih h.of_append).append ?_
    generalize (after (act R) done .init).offlineQueue q = buffer,
      emittedBy R q e (after (act R) done .init) = emitted,
      acceptedBy R q e (after (act R) done .init) = accepted,
      trimmedBy R q e (after (act R) done .init) = trimmed,
      ((after (act R) done .init).handle R e).1.offlineQueue q = buffer' at *
    cases heffect with
    | idle => exact .slnil
    | flush =>
      have hnone : buffer.filter R.ephemeral = [] :=
        List.filter_eq_nil_iff.mpr fun p hp => by simp [hbuffer p hp]
      rw [hnone]
      exact .slnil
    | live p _ => exact .refl _
    | drop p _ => exact List.nil_sublist _
    | keep p _ _ => exact List.nil_sublist _

/-- What is promised of the events of a run for a queue. -/
structure InOrder (R : Reading Payload) (events : List (Event Payload)) (q : String) : Prop where
  /-- What was emitted, followed by what is still buffered, and what was trimmed
  from the front of a full buffer make up what was accepted, in its order. -/
  ordered : Shuffle
    (R.lasting (gathered R (emittedBy R q) events) ++
      (after (act R) events .init).offlineQueue q)
    (gathered R (trimmedBy R q) events) (R.lasting (gathered R (acceptedBy R q) events))
  /-- Ephemeral payloads are emitted at most once, in their order. -/
  ephemeral : ((gathered R (emittedBy R q) events).filter R.ephemeral).Sublist
    ((gathered R (acceptedBy R q) events).filter R.ephemeral)
  /-- They are not buffered, so that they are never flushed. -/
  lasting : ∀ done e todo, events = done ++ e :: todo → ∀ sid p,
    .flushed sid q p ∈ ((after (act R) done .init).handle R e).2 → R.ephemeral p = false
  /-- While something is buffered, nothing is emitted live. -/
  live : ∀ done e todo, events = done ++ e :: todo → ∀ p,
    .live q p ∈ ((after (act R) done .init).handle R e).2 →
      (after (act R) done .init).offlineQueue q = []

/-- **The relay keeps every message in order.** One worker without Redis, one
handler after the other, any events of any sockets, and any decision of the rate
limiter. -/
theorem relay_in_order (R : Reading Payload) {events : List (Event Payload)}
    (h : Sessions events) (q : String) : InOrder R events q where
  ordered := by
    obtain ⟨settled, haccepted, hshuffle⟩ := split_after (R := R) h q
    rw [haccepted]
    exact hshuffle.append_left _
  ephemeral := ephemeral_after h q
  lasting := by
    rintro done e todo rfl sid p hflushed
    exact (kept_after h.of_append).lasting q p (fits_handle e _ _ hflushed)
  live := by
    rintro done e todo rfl p hlive
    exact (kept_after h.of_append).offline q (fits_handle e _ _ hlive)

/-! ## A reconnect -/

def sampleReading : Reading String where
  falsy payload := payload = ""
  large payload := 100 * 1024 < payload.length
  ephemeral payload := payload = "typing"

/-- Bob creates a queue and loses his connection; Alice's push is buffered, and
flushed when he rejoins. -/
def reconnect : List (Event String) :=
  [.connect "bob", .createQueue "bob" false "q", .connect "alice", .createQueue "alice" false "r",
    .registerPeer "alice" (some "r") (some "q"), .disconnect "bob",
    .pushQueue "alice" false "q" "hello", .connect "bob again",
    .rejoinQueue "bob again" false "q"]

theorem relay_in_order_reconnect : InOrder sampleReading reconnect "q" :=
  relay_in_order sampleReading (by decide) "q"

example : gathered sampleReading (emittedBy sampleReading "q") reconnect = ["hello"] := by decide

end

end AnonyMus.Relay.InMemory
