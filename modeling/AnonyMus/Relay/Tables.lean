import AnonyMus.Lib.Since
import AnonyMus.Relay.InOrder
import AnonyMus.Relay.RateLimit

/-!
# Relay server — the tables of its sockets

The dictionaries of `transports/relay/server.py` on one worker without Redis: who owns
and who created a queue, which sockets are connected, and what the rate limiter has
of them. Each event of a socket is handled as a whole, between its `connect` and its
`disconnect`.

* `Tables`, `handle` — the dictionaries, and the handlers;
* `handle_views` — they do what the handlers of `InMemory.Server` do;
* `Owned`, `owned_handle` — what holds of the tables, and that it is kept;
* `Leads`, `Owns` — who a run has made the creator of a queue, and who its owners;
* `ownership_iff` — the tables are in order in every run, and a queue that a socket has taken over
  survives the disconnect of another exactly if that one does not lead it;
* `ownership_lost` — the old socket of a queue can take it back, and go.
-/

namespace AnonyMus.Relay.InMemory

open EStateM (Since after after_iff_since outputs)
open RateLimit (SocketRateLimits isRateLimited)

/-- The dictionaries, and the Socket.IO rooms. -/
structure Tables (Payload : Type) where
  queueOwners        : Dict String (List String)
  queueCreators      : Dict String String
  offlineQueue       : Dict String (List Payload)
  socketConnectTimes : Dict String ℚ
  socketRateLimits   : SocketRateLimits
  rooms              : String → List String

/-- The events of the sockets, at the times at which their handlers look at the clock. -/
inductive SocketEvent (Payload : Type)
  | connect (sid : String) (now : ℚ)
  | createQueue (sid : String) (now : ℚ) (drawn : String)
  | rejoinQueue (sid : String) (now : ℚ) (queueId : String)
  | registerPeer (sid : String) (myQueue peerQueue : Option String)
  | pushQueue (sid : String) (now : ℚ) (queueId : String) (payload : Payload)
  | disconnect (sid : String)

variable {Payload : Type}

def SocketEvent.sid : SocketEvent Payload → String
  | .connect sid _ | .createQueue sid _ _ | .rejoinQueue sid _ _ | .registerPeer sid _ _
  | .pushQueue sid _ _ _ | .disconnect sid => sid

namespace Tables

def init : Tables Payload :=
  ⟨Dict.empty, Dict.empty, Dict.empty, Dict.empty, Dict.empty, fun _ => []⟩

variable (t : Tables Payload)

/-! ## The handlers -/

/-- The set is made on first use. -/
def addQueueOwner (queueId sid : String) : Tables Payload :=
  let sids := (t.queueOwners.get? queueId).getD []
  { t with queueOwners := t.queueOwners.insert queueId (sids.insert sid) }

def addQueueCreator (queueId sid : String) : Tables Payload :=
  { t with queueCreators := t.queueCreators.insert queueId sid }

def isQueueOwner (queueId sid : String) : Prop := sid ∈ (t.queueOwners.get? queueId).getD []

instance (queueId sid : String) : Decidable (t.isQueueOwner queueId sid) :=
  inferInstanceAs (Decidable (sid ∈ (t.queueOwners.get? queueId).getD []))

def isRecipientOnline (queueId : String) : Bool :=
  match t.queueCreators.get? queueId with
  | none => false
  | some creatorSid => (t.socketConnectTimes.get? creatorSid).isSome

def enqueueOffline (queueId : String) (payload : Payload) : Tables Payload :=
  let payloads := (t.offlineQueue.get? queueId).getD [] ++ [payload]
  { t with
    offlineQueue := t.offlineQueue.insert queueId
      (payloads.drop (payloads.length - maxOfflineQueue)) }

def flushOfflineQueue (queueId sid : String) : Tables Payload × List (Emission Payload) :=
  ({ t with offlineQueue := t.offlineQueue.erase queueId },
    ((t.offlineQueue.get? queueId).getD []).map (.flushed sid queueId))

def joinRoom (queueId sid : String) : Tables Payload :=
  { t with rooms := Function.update t.rooms queueId ((t.rooms queueId).insert sid) }

/-- What `create_queue` and `rejoin_queue` have in common. -/
def takeOver (queueId sid : String) : Tables Payload × List (Emission Payload) :=
  (((t.addQueueOwner queueId sid).addQueueCreator queueId sid).joinRoom queueId sid).flushOfflineQueue
    queueId sid

/-- `is_rate_limited` with the limit of the handler. -/
def limit (handler : RateLimit.Handler) (sid : String) (now : ℚ) : Bool × Tables Payload :=
  let (limited, limits) := isRateLimited sid handler.limit handler.window now t.socketRateLimits
  (limited, { t with socketRateLimits := limits })

def handleConnect (sid : String) (now : ℚ) : Tables Payload :=
  { t with
    socketConnectTimes := t.socketConnectTimes.insert sid now
    socketRateLimits :=
      if (t.socketRateLimits.get? sid).isNone then t.socketRateLimits.insert sid []
      else t.socketRateLimits }

def handleCreateQueue (sid drawn : String) : Tables Payload × List (Emission Payload) :=
  let (t, flushed) := t.takeOver drawn sid
  (t, .queueCreated sid drawn :: flushed)

def handleRejoinQueue (sid queueId : String) : Tables Payload × List (Emission Payload) :=
  let queueId := strip queueId
  if queueId = "" then (t, [])
  else
    let (t, flushed) := t.takeOver queueId sid
    (t, .queueRejoined sid queueId :: flushed)

def handleRegisterPeer (sid : String) (myQueue peerQueue : Option String) : Tables Payload :=
  match myQueue, peerQueue with
  | some myQueue, some peerQueue =>
    if myQueue = "" ∨ peerQueue = "" then t
    else if t.isQueueOwner myQueue sid then t.addQueueOwner peerQueue sid
    else t
  | _, _ => t

def handlePushQueue (R : Reading Payload) (sid queueId : String) (payload : Payload) :
    Tables Payload × List (Emission Payload) :=
  if queueId = "" ∨ R.falsy payload then (t, [])
  else if R.large payload then (t, [])
  else if ¬ t.isQueueOwner queueId sid then (t, [])
  else if ¬ t.isRecipientOnline queueId then
    if R.ephemeral payload then (t, [])
    else (t.enqueueOffline queueId payload,
      [.pushQueueError sid queueId "recipient_offline_queued"])
  else (t, [.live queueId payload])

/-- The sets without the socket; those that it leaves empty are deleted. -/
def withoutOwner (sid : String) : Dict String (List String) :=
  (t.queueOwners.mapValues fun sids => sids.filter (· ≠ sid)).filter fun e => e.2 ≠ []

def handleDisconnect (sid : String) : Tables Payload :=
  { queueOwners        := t.withoutOwner sid
    queueCreators      := t.queueCreators.filter fun e => e.2 ≠ sid
    offlineQueue       := t.offlineQueue
    socketConnectTimes := t.socketConnectTimes.erase sid
    socketRateLimits   := t.socketRateLimits.erase sid
    rooms              := fun room => (t.rooms room).filter (· ≠ sid) }

def handle (R : Reading Payload) : SocketEvent Payload → Tables Payload × List (Emission Payload)
  | .connect sid now => (t.handleConnect sid now, [])
  | .createQueue sid now drawn =>
    let (limited, t) := t.limit .createQueue sid now
    if limited then (t, []) else t.handleCreateQueue sid drawn
  | .rejoinQueue sid now queueId =>
    let (limited, t) := t.limit .rejoinQueue sid now
    if limited then (t, []) else t.handleRejoinQueue sid queueId
  | .registerPeer sid myQueue peerQueue => (t.handleRegisterPeer sid myQueue peerQueue, [])
  | .pushQueue sid now queueId payload =>
    let (limited, t) := t.limit .pushQueue sid now
    if limited then (t, []) else t.handlePushQueue R sid queueId payload
  | .disconnect sid => (t.handleDisconnect sid, [])

end Tables

open Tables

/-! ## The tables as the relay without limits sees them -/

/-- The event, as the relay without limits is told of it. -/
def SocketEvent.told (t : Tables Payload) : SocketEvent Payload → InMemory.Event Payload
  | .connect sid _ => .connect sid
  | .createQueue sid now drawn => .createQueue sid (t.limit .createQueue sid now).1 drawn
  | .rejoinQueue sid now queueId => .rejoinQueue sid (t.limit .rejoinQueue sid now).1 queueId
  | .registerPeer sid myQueue peerQueue => .registerPeer sid myQueue peerQueue
  | .pushQueue sid now queueId payload =>
    .pushQueue sid (t.limit .pushQueue sid now).1 queueId payload
  | .disconnect sid => .disconnect sid

/-- A key that is missing and an empty value are the same there. -/
structure Views (t : Tables Payload) (s : InMemory.Server Payload) : Prop where
  owners    : ∀ q, (t.queueOwners.get? q).getD [] = s.queueOwners q
  creators  : ∀ q, t.queueCreators.get? q = s.queueCreators q
  offline   : ∀ q, (t.offlineQueue.get? q).getD [] = s.offlineQueue q
  connected : ∀ sid, (t.socketConnectTimes.get? sid).isSome ↔ sid ∈ s.socketConnectTimes
  rooms     : t.rooms = s.rooms

section

variable {R : Reading Payload} {t : Tables Payload} {s : Server Payload}

/-- Neither of the two is told of the timestamps. -/
theorem Views.limits (h : Views t s) (limits : SocketRateLimits) :
    Views { t with socketRateLimits := limits } s :=
  ⟨h.owners, h.creators, h.offline, h.connected, h.rooms⟩

theorem Views.isQueueOwner_iff (h : Views t s) (q sid : String) :
    t.isQueueOwner q sid ↔ s.isQueueOwner q sid := by
  unfold Tables.isQueueOwner Server.isQueueOwner
  rw [h.owners]

theorem Views.isRecipientOnline (h : Views t s) (q : String) :
    t.isRecipientOnline q = s.isRecipientOnline q := by
  unfold Tables.isRecipientOnline Server.isRecipientOnline
  rw [h.creators]
  cases s.queueCreators q with
  | none => rfl
  | some creatorSid =>
    rw [Bool.eq_iff_iff, h.connected]
    exact decide_eq_true_iff.symm

theorem Views.addQueueOwner (h : Views t s) (q sid : String) :
    Views (t.addQueueOwner q sid) (s.addQueueOwner q sid) := by
  refine ⟨fun q' => ?_, h.creators, h.offline, h.connected, h.rooms⟩
  unfold Tables.addQueueOwner Server.addQueueOwner
  dsimp only
  rw [Dict.get?_insert, Function.update_apply, ← h.owners q]
  split_ifs
  · rfl
  · exact h.owners q'

theorem Views.takeOver (h : Views t s) (q sid : String) :
    Views (t.takeOver q sid).1 (s.takeOver sid q).1 ∧
      (t.takeOver q sid).2 = (s.takeOver sid q).2.map Server.direct := by
  have howner := h.addQueueOwner q sid
  refine ⟨⟨howner.owners, fun q' => ?_, fun q' => ?_, howner.connected, ?_⟩, ?_⟩
  · show (t.queueCreators.insert q sid).get? q' = Function.update s.queueCreators q (some sid) q'
    rw [Dict.get?_insert, Function.update_apply, h.creators]
  · show ((t.offlineQueue.erase q).get? q').getD [] = Function.update s.offlineQueue q [] q'
    rw [Dict.get?_erase, Function.update_apply, ← h.offline q']
    split_ifs
    · rfl
    · rfl
  · show Function.update t.rooms q ((t.rooms q).insert sid) =
      Function.update s.rooms q ((s.rooms q).insert sid)
    rw [h.rooms]
  · show ((t.offlineQueue.get? q).getD []).map (.flushed sid q) =
      ((s.offlineQueue q).map fun payload => (sid, .queuePayload q payload)).map Server.direct
    rw [h.offline, List.map_map]
    rfl

/-- A set that is left is an old one without the socket, and not empty. -/
theorem get?_withoutOwner {sid q : String} {sids : List String} :
    (t.withoutOwner sid).get? q = some sids ↔
      sids ≠ [] ∧ ∃ old, t.queueOwners.get? q = some old ∧ old.filter (· ≠ sid) = sids := by
  unfold withoutOwner
  rw [Dict.get?_filter, Dict.get?_mapValues, Option.map_eq_some_iff, and_comm]
  exact and_congr_left' decide_eq_true_iff

/-- Whom a disconnect leaves as owners. -/
theorem getD_withoutOwner (sid q : String) :
    ((t.withoutOwner sid).get? q).getD [] =
      ((t.queueOwners.get? q).getD []).filter (· ≠ sid) := by
  cases hleft : (t.withoutOwner sid).get? q with
  | some sids =>
    obtain ⟨-, old, hold, rfl⟩ := get?_withoutOwner.mp hleft
    rw [hold]
    rfl
  | none =>
    cases hold : t.queueOwners.get? q with
    | none => rfl
    | some old =>
      -- the set has been deleted, since nobody is left in it
      by_contra hne
      have hsome := get?_withoutOwner.mpr ⟨fun h => hne h.symm, old, hold, rfl⟩
      rw [hleft] at hsome
      cases hsome

theorem get?_handleDisconnect_creators {sid q creatorSid : String} :
    (t.handleDisconnect sid).queueCreators.get? q = some creatorSid ↔
      t.queueCreators.get? q = some creatorSid ∧ creatorSid ≠ sid := by
  show (t.queueCreators.filter _).get? q = _ ↔ _
  rw [Dict.get?_filter, decide_eq_true_iff]

theorem Views.handleDisconnect (h : Views t s) (sid : String) :
    Views (t.handleDisconnect sid) (s.handleDisconnect sid) := by
  refine ⟨fun q => ?_, fun q => ?_, h.offline, fun sid' => ?_, ?_⟩
  · show ((t.withoutOwner sid).get? q).getD [] = (s.queueOwners q).filter (· ≠ sid)
    rw [getD_withoutOwner, h.owners]
  · show _ = if s.queueCreators q = some sid then none else s.queueCreators q
    apply Option.ext
    intro creatorSid
    rw [get?_handleDisconnect_creators, h.creators]
    split_ifs with hsid
    · rw [hsid]
      simp only [Option.some.injEq, iff_false, not_and, not_not]
      exact Eq.symm
    · exact and_iff_left_of_imp fun hcreator heq => hsid (heq ▸ hcreator)
  · show ((t.socketConnectTimes.erase sid).get? sid').isSome ↔
      sid' ∈ s.socketConnectTimes.filter (· ≠ sid)
    rw [Dict.get?_erase, List.mem_filter, ← h.connected, decide_eq_true_iff]
    split_ifs with hsid
    · simp [hsid]
    · simp [hsid]
  · show (fun room => (t.rooms room).filter (· ≠ sid)) = fun room => (s.rooms room).filter (· ≠ sid)
    rw [h.rooms]

theorem Views.handleRegisterPeer (h : Views t s) (sid : String)
    (myQueue peerQueue : Option String) :
    Views (t.handleRegisterPeer sid myQueue peerQueue)
      (s.handleRegisterPeer sid myQueue peerQueue) := by
  unfold Tables.handleRegisterPeer Server.handleRegisterPeer
  rcases myQueue with _ | myQueue
  · exact h
  rcases peerQueue with _ | peerQueue
  · exact h
  dsimp only
  simp only [h.isQueueOwner_iff]
  split_ifs
  · exact h
  · exact h.addQueueOwner peerQueue sid
  · exact h

theorem Views.handlePushQueue (h : Views t s) (sid q : String) (payload : Payload) :
    Views (t.handlePushQueue R sid q payload).1 (s.handlePush R sid q payload).1 ∧
      (t.handlePushQueue R sid q payload).2 = (s.handlePush R sid q payload).2 := by
  have henqueue : Views (t.enqueueOffline q payload) (s.enqueueOffline q payload) := by
    refine ⟨h.owners, h.creators, fun q' => ?_, h.connected, h.rooms⟩
    unfold Tables.enqueueOffline Server.enqueueOffline
    dsimp only
    rw [Dict.get?_insert, Function.update_apply, h.offline q]
    split_ifs
    · rw [Option.getD_some]
    · exact h.offline q'
  unfold Tables.handlePushQueue Server.handlePush
  simp only [h.isQueueOwner_iff, h.isRecipientOnline]
  split_ifs
  -- only a push that is buffered changes the tables
  · exact ⟨h, rfl⟩
  · exact ⟨h, rfl⟩
  · exact ⟨h, rfl⟩
  · exact ⟨h, rfl⟩
  · exact ⟨henqueue, rfl⟩
  · exact ⟨h, rfl⟩

/-- The tables do what the relay without limits does, which is told whom the limiter
stops. -/
theorem handle_views (R : Reading Payload) (h : Views t s) (e : SocketEvent Payload) :
    Views (t.handle R e).1 (s.handle R (e.told t)).1 ∧
      (t.handle R e).2 = (s.handle R (e.told t)).2 := by
  cases e with
  | connect sid now =>
    -- a socket is connected exactly if its time is kept
    refine ⟨⟨h.owners, h.creators, h.offline, fun sid' => ?_, h.rooms⟩, rfl⟩
    show ((t.socketConnectTimes.insert sid now).get? sid').isSome ↔
      sid' ∈ s.socketConnectTimes.insert sid
    rw [Dict.get?_insert, List.mem_insert_iff, ← h.connected]
    split_ifs with hsid
    · simp [hsid]
    · simp [hsid]
  | createQueue sid now drawn =>
    have hlimits := h.limits (t.limit .createQueue sid now).2.socketRateLimits
    unfold Tables.handle Server.handle SocketEvent.told
    dsimp only
    -- both relays stop the same sockets
    split_ifs
    · exact ⟨hlimits, rfl⟩
    · obtain ⟨hstate, hsent⟩ := hlimits.takeOver drawn sid
      exact ⟨⟨hstate.owners, hstate.creators, hstate.offline, hstate.connected, hstate.rooms⟩,
        congrArg (_ :: ·) hsent⟩
  | rejoinQueue sid now queueId =>
    have hlimits := h.limits (t.limit .rejoinQueue sid now).2.socketRateLimits
    unfold Tables.handle Server.handle SocketEvent.told
    dsimp only
    split_ifs
    · exact ⟨hlimits, rfl⟩
    · unfold Tables.handleRejoinQueue Server.handleRejoin
      dsimp only
      split_ifs
      · exact ⟨hlimits, rfl⟩
      · obtain ⟨hstate, hsent⟩ := hlimits.takeOver (strip queueId) sid
        exact ⟨hstate, congrArg (_ :: ·) hsent⟩
  | registerPeer sid myQueue peerQueue =>
    exact ⟨h.handleRegisterPeer sid myQueue peerQueue, rfl⟩
  | pushQueue sid now queueId payload =>
    have hlimits := h.limits (t.limit .pushQueue sid now).2.socketRateLimits
    unfold Tables.handle Server.handle SocketEvent.told
    dsimp only
    split_ifs
    · exact ⟨hlimits, rfl⟩
    · exact hlimits.handlePushQueue sid queueId payload
  | disconnect sid => exact ⟨h.handleDisconnect sid, rfl⟩

end

/-! ## What holds of the tables -/

/-- The sockets that are connected once the event has been handled. -/
def SocketEvent.connected (e : SocketEvent Payload) (sids : List String) : List String :=
  match e with
  | .connect sid _ => sid :: sids
  | .disconnect sid => sids.filter (· ≠ sid)
  | _ => sids

/-- A socket is heard of between its `connect` and its `disconnect`. -/
def SocketEvent.Heard (e : SocketEvent Payload) (sids : List String) : Prop :=
  match e with
  | .connect sid _ => sid ∉ sids
  | e => e.sid ∈ sids

instance : (e : SocketEvent Payload) → (sids : List String) → Decidable (e.Heard sids)
  | .connect sid _, sids => inferInstanceAs (Decidable (sid ∉ sids))
  | .createQueue sid _ _, sids | .rejoinQueue sid _ _, sids | .registerPeer sid _ _, sids
  | .pushQueue sid _ _ _, sids | .disconnect sid, sids => inferInstanceAs (Decidable (sid ∈ sids))

/-- Only the sockets are looked at. -/
def sockets (e : SocketEvent Payload) : EStateM Empty (List String) Unit :=
  modifyGet fun sids => ((), e.connected sids)

/-- The events of a run: a socket that is connected does not connect, and the others do
nothing else. -/
def Live (events : List (SocketEvent Payload)) : Prop :=
  EStateM.AllMeet sockets SocketEvent.Heard events []

/-- The sockets that the events leave connected. -/
def opened (events : List (SocketEvent Payload)) : List String := after sockets events []

def Tables.act (R : Reading Payload) (e : SocketEvent Payload) :
    EStateM Empty (Tables Payload) (List (Emission Payload)) :=
  modifyGet fun t => ((t.handle R e).2, (t.handle R e).1)

def tablesAfter (R : Reading Payload) (events : List (SocketEvent Payload)) : Tables Payload :=
  after (Tables.act R) events Tables.init

/-- A run, as the relay without limits is told of it. -/
def toldOf (R : Reading Payload) : List (SocketEvent Payload) → Tables Payload →
    List (InMemory.Event Payload)
  | [], _ => []
  | e :: events, t => e.told t :: toldOf R events (t.handle R e).1

theorem Views.run (R : Reading Payload) {t : Tables Payload} {s : Server Payload} (h : Views t s)
    (events : List (SocketEvent Payload)) :
    Views (after (Tables.act R) events t) (after (act R) (toldOf R events t) s) ∧
      (outputs (Tables.act R) (fun e t => some (t.handle R e).2) events t).flatten =
        (outputs (act R) (fun e s => some (s.handle R e).2) (toldOf R events t) s).flatten := by
  induction events generalizing t s with
  | nil => exact ⟨h, rfl⟩
  | cons e events ih =>
    obtain ⟨hstate, hsent⟩ := handle_views R h e
    obtain ⟨hviews, houtputs⟩ := ih hstate
    refine ⟨hviews, ?_⟩
    show (t.handle R e).2 ++ _ = (s.handle R (e.told t)).2 ++ _
    rw [hsent]
    exact congrArg _ houtputs

/-- **The tables refine the relay without limits.** In every run, whatever the times, they hold what
it holds and emit what it emits, if it is told whom the limiter stops. -/
theorem tables_simulate (R : Reading Payload) (events : List (SocketEvent Payload)) :
    Views (tablesAfter R events) (after (act R) (toldOf R events Tables.init) .init) ∧
      (outputs (Tables.act R) (fun e t => some (t.handle R e).2) events Tables.init).flatten =
        (outputs (act R) (fun e s => some (s.handle R e).2) (toldOf R events Tables.init)
          .init).flatten :=
  Views.run R ⟨fun _ => rfl, fun _ => rfl, fun _ => rfl, fun _ => by
    simp [Tables.init, Server.init], rfl⟩ events

/-- The tables speak of connected sockets only, no set of owners is empty, and the
creator of a queue is an owner of it and in its room. -/
structure Owned (t : Tables Payload) (sids : List String) : Prop where
  connected : ∀ sid, (t.socketConnectTimes.get? sid).isSome ↔ sid ∈ sids
  owners    : ∀ q owners, t.queueOwners.get? q = some owners →
    owners ≠ [] ∧ ∀ sid ∈ owners, sid ∈ sids
  creators  : ∀ q sid, t.queueCreators.get? q = some sid →
    sid ∈ sids ∧ t.isQueueOwner q sid ∧ sid ∈ t.rooms q
  limits    : ∀ sid, (t.socketRateLimits.get? sid).isSome → sid ∈ sids

section

variable {R : Reading Payload} {t : Tables Payload} {sids : List String}

theorem owned_init : Owned (Tables.init : Tables Payload) [] where
  connected _ := by simp [Tables.init]
  owners _ _ h := by simp [Tables.init] at h
  creators _ _ h := by simp [Tables.init] at h
  limits _ h := by simp [Tables.init] at h

/-- Only the socket that asks gets timestamps. -/
theorem isSome_isRateLimited {sid sid' : String} {limit : ℕ} {window now : ℚ}
    {limits : SocketRateLimits}
    (h : ((isRateLimited sid limit window now limits).2.get? sid').isSome) :
    sid' = sid ∨ (limits.get? sid').isSome := by
  unfold isRateLimited at h
  dsimp only at h
  by_cases hsid : sid' = sid
  · exact Or.inl hsid
  · right
    split_ifs at h
    all_goals simpa [Dict.get?_erase, Dict.get?_insert, hsid] using h

theorem Owned.limit (h : Owned t sids) {handler : RateLimit.Handler} {sid : String} (now : ℚ)
    (hsid : sid ∈ sids) : Owned (t.limit handler sid now).2 sids := by
  refine ⟨h.connected, h.owners, h.creators, fun sid' hsome => ?_⟩
  rcases isSome_isRateLimited hsome with rfl | hsome
  · exact hsid
  · exact h.limits sid' hsome

theorem isQueueOwner_addQueueOwner {q q' sid sid' : String} :
    (t.addQueueOwner q sid).isQueueOwner q' sid' ↔
      (q' = q ∧ sid' = sid) ∨ t.isQueueOwner q' sid' := by
  unfold Tables.isQueueOwner Tables.addQueueOwner
  dsimp only
  rw [Dict.get?_insert]
  split_ifs with hq
  · rw [Option.getD_some, List.mem_insert_iff, hq, and_iff_right rfl]
  · rw [or_iff_right fun h => hq h.1]

theorem Owned.addQueueOwner (h : Owned t sids) (q : String) {sid : String} (hsid : sid ∈ sids) :
    Owned (t.addQueueOwner q sid) sids := by
  refine ⟨h.connected, fun q' owners howners => ?_, fun q' sid' hcreator => ?_, h.limits⟩
  · have hget : (if q' = q then some (((t.queueOwners.get? q).getD []).insert sid)
        else t.queueOwners.get? q') = some owners := by
      rw [← Dict.get?_insert]
      exact howners
    split_ifs at hget with hq
    · obtain rfl := Option.some.inj hget
      refine ⟨List.ne_nil_of_mem List.mem_insert_self, fun sid' hsid' => ?_⟩
      rcases List.mem_insert_iff.mp hsid' with rfl | hold
      · exact hsid
      · -- one of those who were in the set before
        cases hset : t.queueOwners.get? q with
        | none => simp [hset] at hold
        | some old =>
          rw [hset] at hold
          exact (h.owners q old hset).2 sid' hold
    · exact h.owners q' owners hget
  · obtain ⟨hopen, howner, hroom⟩ := h.creators q' sid' hcreator
    exact ⟨hopen, isQueueOwner_addQueueOwner.mpr (Or.inr howner), hroom⟩

theorem get?_takeOver_creators {q q' sid : String} :
    (t.takeOver q sid).1.queueCreators.get? q' =
      if q' = q then some sid else t.queueCreators.get? q' :=
  Dict.get?_insert ..

theorem isQueueOwner_takeOver {q q' sid sid' : String} :
    (t.takeOver q sid).1.isQueueOwner q' sid' ↔
      (q' = q ∧ sid' = sid) ∨ t.isQueueOwner q' sid' :=
  isQueueOwner_addQueueOwner

theorem Owned.takeOver (h : Owned t sids) (q : String) {sid : String} (hsid : sid ∈ sids) :
    Owned (t.takeOver q sid).1 sids := by
  have howner := h.addQueueOwner q hsid
  refine ⟨howner.connected, howner.owners, fun q' sid' hcreator => ?_, howner.limits⟩
  show sid' ∈ sids ∧ (t.takeOver q sid).1.isQueueOwner q' sid' ∧
    sid' ∈ Function.update t.rooms q ((t.rooms q).insert sid) q'
  rw [get?_takeOver_creators] at hcreator
  rw [isQueueOwner_takeOver, Function.update_apply]
  split_ifs at hcreator ⊢ with hq
  · obtain rfl := Option.some.inj hcreator
    exact ⟨hsid, Or.inl ⟨hq, rfl⟩, List.mem_insert_self⟩
  · obtain ⟨hopen, howner, hroom⟩ := h.creators q' sid' hcreator
    exact ⟨hopen, Or.inr howner, hroom⟩

theorem isQueueOwner_handleDisconnect {q sid sid' : String} :
    (t.handleDisconnect sid).isQueueOwner q sid' ↔ t.isQueueOwner q sid' ∧ sid' ≠ sid := by
  show sid' ∈ ((t.withoutOwner sid).get? q).getD [] ↔ _
  rw [getD_withoutOwner, List.mem_filter, decide_eq_true_iff]
  rfl

theorem Owned.handleDisconnect (h : Owned t sids) (sid : String) :
    Owned (t.handleDisconnect sid) (sids.filter (· ≠ sid)) := by
  have hleft : ∀ {sid'}, sid' ∈ sids.filter (· ≠ sid) ↔ sid' ∈ sids ∧ sid' ≠ sid := by
    intro sid'
    rw [List.mem_filter, decide_eq_true_iff]
  refine ⟨fun sid' => ?_, fun q owners howners => ?_, fun q sid' hcreator => ?_,
    fun sid' hsome => ?_⟩
  · show ((t.socketConnectTimes.erase sid).get? sid').isSome ↔ _
    rw [Dict.get?_erase, hleft, ← h.connected]
    split_ifs with hsid
    · simp [hsid]
    · simp [hsid]
  · obtain ⟨hne, old, hold, rfl⟩ := get?_withoutOwner.mp howners
    refine ⟨hne, fun sid' hmem => hleft.mpr ?_⟩
    rw [List.mem_filter, decide_eq_true_iff] at hmem
    exact ⟨(h.owners q old hold).2 sid' hmem.1, hmem.2⟩
  · obtain ⟨hcreator, hne⟩ := get?_handleDisconnect_creators.mp hcreator
    obtain ⟨hopen, howner, hroom⟩ := h.creators q sid' hcreator
    refine ⟨hleft.mpr ⟨hopen, hne⟩, isQueueOwner_handleDisconnect.mpr ⟨howner, hne⟩, ?_⟩
    show sid' ∈ (t.rooms q).filter (· ≠ sid)
    rw [List.mem_filter, decide_eq_true_iff]
    exact ⟨hroom, hne⟩
  · have hget : ((t.socketRateLimits.erase sid).get? sid').isSome := hsome
    rw [Dict.get?_erase] at hget
    split_ifs at hget with hsid
    · cases hget
    · exact hleft.mpr ⟨h.limits sid' hget, hsid⟩

theorem Owned.handleConnect (h : Owned t sids) (sid : String) (now : ℚ) :
    Owned (t.handleConnect sid now) (sid :: sids) := by
  refine ⟨fun sid' => ?_, fun q owners howners => ?_, fun q sid' hcreator => ?_,
    fun sid' hsome => ?_⟩
  · show ((t.socketConnectTimes.insert sid now).get? sid').isSome ↔ _
    rw [Dict.get?_insert, List.mem_cons, ← h.connected]
    split_ifs with hsid
    · simp [hsid]
    · simp [hsid]
  · obtain ⟨hne, hopen⟩ := h.owners q owners howners
    exact ⟨hne, fun sid' hmem => List.mem_cons_of_mem sid (hopen sid' hmem)⟩
  · obtain ⟨hopen, howner⟩ := h.creators q sid' hcreator
    exact ⟨List.mem_cons_of_mem sid hopen, howner⟩
  · by_cases hsid : sid' = sid
    · exact List.mem_cons.mpr (Or.inl hsid)
    · refine List.mem_cons_of_mem sid (h.limits sid' ?_)
      unfold Tables.handleConnect at hsome
      dsimp only at hsome
      split_ifs at hsome
      · rwa [Dict.get?_insert, if_neg hsid] at hsome
      · exact hsome

/-- What an event can make of the tables: the limiter may stop it, and it may be in vain. -/
inductive Handled (t : Tables Payload) : SocketEvent Payload → Tables Payload → Prop
  | connect {sid : String} {now : ℚ} : Handled t (.connect sid now) (t.handleConnect sid now)
  | notCreated {sid drawn : String} {now : ℚ} :
    Handled t (.createQueue sid now drawn) (t.limit .createQueue sid now).2
  | created {sid drawn : String} {now : ℚ} (hlimit : (t.limit .createQueue sid now).1 = false) :
    Handled t (.createQueue sid now drawn) ((t.limit .createQueue sid now).2.takeOver drawn sid).1
  | notRejoined {sid queueId : String} {now : ℚ} :
    Handled t (.rejoinQueue sid now queueId) (t.limit .rejoinQueue sid now).2
  | rejoined {sid queueId : String} {now : ℚ}
    (hlimit : (t.limit .rejoinQueue sid now).1 = false) (hne : strip queueId ≠ "") :
    Handled t (.rejoinQueue sid now queueId)
      ((t.limit .rejoinQueue sid now).2.takeOver (strip queueId) sid).1
  | notRegistered {sid : String} {myQueue peerQueue : Option String} :
    Handled t (.registerPeer sid myQueue peerQueue) t
  | registered {sid myQueue peerQueue : String} (hmy : myQueue ≠ "") (hpeer : peerQueue ≠ "")
    (howner : t.isQueueOwner myQueue sid) :
    Handled t (.registerPeer sid (some myQueue) (some peerQueue)) (t.addQueueOwner peerQueue sid)
  | notBuffered {sid queueId : String} {now : ℚ} {payload : Payload} :
    Handled t (.pushQueue sid now queueId payload) (t.limit .pushQueue sid now).2
  | buffered {sid queueId : String} {now : ℚ} {payload : Payload} :
    Handled t (.pushQueue sid now queueId payload)
      ((t.limit .pushQueue sid now).2.enqueueOffline queueId payload)
  | disconnect {sid : String} : Handled t (.disconnect sid) (t.handleDisconnect sid)

theorem handled (R : Reading Payload) (t : Tables Payload) (e : SocketEvent Payload) :
    Handled t e (t.handle R e).1 := by
  cases e with
  | connect sid now => exact .connect
  | createQueue sid now drawn =>
    unfold Tables.handle
    dsimp only
    split_ifs with hlimit
    · exact .notCreated
    · exact .created (Bool.eq_false_of_not_eq_true hlimit)
  | rejoinQueue sid now queueId =>
    unfold Tables.handle Tables.handleRejoinQueue
    dsimp only
    split_ifs with hlimit hempty
    · exact .notRejoined
    · exact .notRejoined
    · exact .rejoined (Bool.eq_false_of_not_eq_true hlimit) hempty
  | registerPeer sid myQueue peerQueue =>
    show Handled t _ (t.handleRegisterPeer sid myQueue peerQueue)
    unfold Tables.handleRegisterPeer
    split
    · split_ifs with hempty howner
      · exact .notRegistered
      · exact .registered (not_or.mp hempty).1 (not_or.mp hempty).2 howner
      · exact .notRegistered
    · exact .notRegistered
  | pushQueue sid now queueId payload =>
    unfold Tables.handle Tables.handlePushQueue
    dsimp only
    split_ifs
    -- a payload waits only if the recipient is offline and it is not ephemeral
    all_goals first | exact .notBuffered | exact .buffered
  | disconnect sid => exact .disconnect

/-- Every handler keeps the tables in order. -/
theorem owned_handle {e : SocketEvent Payload} (h : Owned t sids) (hheard : e.Heard sids) :
    Owned (t.handle R e).1 (e.connected sids) := by
  have hhandled := handled R t e
  generalize (t.handle R e).1 = t' at hhandled ⊢
  cases hhandled with
  | connect => exact h.handleConnect _ _
  | notCreated | notRejoined | notBuffered => exact h.limit _ hheard
  | created => exact (h.limit _ hheard).takeOver _ hheard
  | rejoined => exact (h.limit _ hheard).takeOver _ hheard
  | notRegistered => exact h
  | registered => exact h.addQueueOwner _ hheard
  | @buffered sid queueId now payload =>
    -- the buffer is not looked at
    have hlimit : Owned (t.limit .pushQueue sid now).2 sids := h.limit now hheard
    exact ⟨hlimit.connected, hlimit.owners, hlimit.creators, hlimit.limits⟩
  | disconnect => exact h.handleDisconnect _

/-- So do all of them in turn. -/
theorem owned_after {events : List (SocketEvent Payload)} (hlive : Live events) :
    Owned (tablesAfter R events) (opened events) := by
  have hstep : ∀ (e : SocketEvent Payload) (sids : List String) (t : Tables Payload), Owned t sids →
      e.Heard sids → True ∧ Owned (Tables.act R e t).state (sockets e sids).state :=
    fun e sids t h hheard => ⟨trivial, owned_handle h hheard⟩
  have hrun := EStateM.run_related (R := fun sids t => Owned t sids) (O := fun _ _ _ => True)
    hstep owned_init hlive
  exact hrun.1 events [] (List.append_nil events).symm

end

/-! ## A queue that has been taken over -/

/-- The socket that becomes the creator of queue `q`. -/
def takesOver (q : String) (e : SocketEvent Payload) (t : Tables Payload) : Option String :=
  match e with
  | .createQueue sid now drawn =>
    if (t.limit .createQueue sid now).1 = false ∧ drawn = q then some sid else none
  | .rejoinQueue sid now queueId =>
    if (t.limit .rejoinQueue sid now).1 = false ∧ strip queueId = q ∧ q ≠ "" then some sid
    else none
  | _ => none

/-- The socket that is registered as a peer of queue `q`. -/
def registers (q : String) (e : SocketEvent Payload) (t : Tables Payload) : Option String :=
  match e with
  | .registerPeer sid (some myQueue) (some peerQueue) =>
    if myQueue ≠ "" ∧ peerQueue ≠ "" ∧ t.isQueueOwner myQueue sid ∧ peerQueue = q then some sid
    else none
  | _ => none

/-- The socket has taken queue `q` over, and since then no other, and it has not gone. -/
def Leads (R : Reading Payload) (q sid : String) (events : List (SocketEvent Payload)) : Prop :=
  Since (Tables.act R) (fun e t => takesOver q e t = some sid)
    (fun e t => takesOver q e t = none ∧ e ≠ .disconnect sid) events Tables.init

/-- The socket has registered for queue `q`, and it has not gone since. -/
def Registered (R : Reading Payload) (q sid : String) (events : List (SocketEvent Payload)) :
    Prop :=
  Since (Tables.act R) (fun e t => registers q e t = some sid) (fun e _ => e ≠ .disconnect sid)
    events Tables.init

/-- The socket has taken queue `q` over or registered for it, and it has not gone since. -/
def Owns (R : Reading Payload) (q sid : String) (events : List (SocketEvent Payload)) : Prop :=
  Since (Tables.act R) (fun e t => takesOver q e t = some sid ∨ registers q e t = some sid)
    (fun e _ => e ≠ .disconnect sid) events Tables.init

/-- What is to be left of queue `q`, which `s2` has taken over, when `s1` disconnects after the
events `before`. -/
structure Survives (R : Reading Payload) (q s1 s2 : String)
    (before : List (SocketEvent Payload)) : Prop where
  online : (tablesAfter R (before ++ [.disconnect s1])).isRecipientOnline q = true
  owned  : (tablesAfter R (before ++ [.disconnect s1])).isQueueOwner q s2
  /-- A push that the limiter lets through, with a payload that passes. -/
  pushed : ∀ sid, sid ≠ s1 → Registered R q sid before → ∀ t,
    t = tablesAfter R (before ++ [.disconnect s1]) → ∀ now payload,
      (t.limit .pushQueue sid now).1 = false → R.falsy payload = false → R.large payload = false →
        (t.handle R (.pushQueue sid now q payload)).2 = [.live q payload]

section

variable {R : Reading Payload} {t : Tables Payload} {sids : List String} {q sid : String}
  {e : SocketEvent Payload}

/-- Who takes a queue over owns it and is its creator. -/
theorem handle_of_takesOver (h : takesOver q e t = some sid) :
    (t.handle R e).1.isQueueOwner q sid ∧
      (t.handle R e).1.queueCreators.get? q = some sid := by
  have htaken : ∀ t' : Tables Payload, (t'.takeOver q sid).1.isQueueOwner q sid ∧
      (t'.takeOver q sid).1.queueCreators.get? q = some sid := by
    intro t'
    rw [isQueueOwner_takeOver, get?_takeOver_creators, if_pos rfl]
    exact ⟨Or.inl ⟨rfl, rfl⟩, rfl⟩
  cases e with
  | createQueue sid' now drawn =>
    obtain ⟨⟨hlimit, rfl⟩, hsid⟩ := Option.ite_none_right_eq_some.mp h
    obtain rfl := Option.some.inj hsid
    unfold Tables.handle
    dsimp only
    rw [hlimit]
    exact htaken _
  | rejoinQueue sid' now queueId =>
    obtain ⟨⟨hlimit, rfl, hne⟩, hsid⟩ := Option.ite_none_right_eq_some.mp h
    obtain rfl := Option.some.inj hsid
    unfold Tables.handle Tables.handleRejoinQueue
    dsimp only
    rw [hlimit, if_neg hne]
    exact htaken _
  | connect | registerPeer | pushQueue | disconnect => cases h

/-- The other events leave the creator of a queue alone, unless it disconnects. -/
theorem creator_handle_iff (h : takesOver q e t = none) :
    (t.handle R e).1.queueCreators.get? q = some sid ↔
      t.queueCreators.get? q = some sid ∧ e ≠ .disconnect sid := by
  have hhandled := handled R t e
  generalize (t.handle R e).1 = t' at hhandled ⊢
  -- an event that is no disconnect has to leave the entry
  have hsame : e ≠ .disconnect sid →
      t'.queueCreators.get? q = t.queueCreators.get? q →
      (t'.queueCreators.get? q = some sid ↔
        t.queueCreators.get? q = some sid ∧ e ≠ .disconnect sid) := by
    intro hne heq
    rw [heq, and_iff_left hne]
  cases hhandled with
  | created hlimit =>
    -- a queue is taken over, but not this one
    refine hsame nofun (get?_takeOver_creators.trans (if_neg ?_))
    rintro rfl
    rw [takesOver, if_pos ⟨hlimit, rfl⟩] at h
    cases h
  | rejoined hlimit hempty =>
    refine hsame nofun (get?_takeOver_creators.trans (if_neg ?_))
    rintro rfl
    rw [takesOver, if_pos ⟨hlimit, rfl, hempty⟩] at h
    cases h
  | disconnect =>
    rw [ne_eq, SocketEvent.disconnect.injEq]
    exact get?_handleDisconnect_creators.trans (and_congr_right' ne_comm)
  | _ => exact hsame nofun rfl

/-- An owner stays an owner until it disconnects. -/
theorem isQueueOwner_handle (howner : t.isQueueOwner q sid) (hstay : e ≠ .disconnect sid) :
    (t.handle R e).1.isQueueOwner q sid := by
  have hhandled := handled R t e
  generalize (t.handle R e).1 = t' at hhandled ⊢
  cases hhandled with
  | created => exact isQueueOwner_takeOver.mpr (Or.inr howner)
  | rejoined => exact isQueueOwner_takeOver.mpr (Or.inr howner)
  | registered => exact isQueueOwner_addQueueOwner.mpr (Or.inr howner)
  | disconnect =>
    -- only the socket itself can end its ownership
    refine isQueueOwner_handleDisconnect.mpr ⟨howner, fun heq => hstay ?_⟩
    rw [heq]
  | _ => exact howner

/-- A socket that registers for a queue may push to it. -/
theorem isQueueOwner_of_registers (h : registers q e t = some sid) :
    q ≠ "" ∧ (t.handle R e).1.isQueueOwner q sid := by
  unfold registers at h
  split at h
  · obtain ⟨⟨hmy, hpeer, howner, rfl⟩, hsid⟩ := Option.ite_none_right_eq_some.mp h
    obtain rfl := Option.some.inj hsid
    refine ⟨hpeer, ?_⟩
    unfold Tables.handle Tables.handleRegisterPeer
    dsimp only
    rw [if_neg (not_or.mpr ⟨hmy, hpeer⟩), if_pos howner]
    exact isQueueOwner_addQueueOwner.mpr (Or.inl ⟨rfl, rfl⟩)
  · cases h

theorem isQueueOwner_handle_iff :
    (t.handle R e).1.isQueueOwner q sid ↔
      (takesOver q e t = some sid ∨ registers q e t = some sid) ∨
        t.isQueueOwner q sid ∧ e ≠ .disconnect sid := by
  constructor
  · intro howner
    have hhandled := handled R t e
    generalize (t.handle R e).1 = t' at hhandled howner
    cases hhandled with
    | created hlimit =>
      rcases isQueueOwner_takeOver.mp howner with ⟨rfl, rfl⟩ | hold
      · exact .inl (.inl (if_pos ⟨hlimit, rfl⟩))
      · exact .inr ⟨hold, nofun⟩
    | rejoined hlimit hne =>
      rcases isQueueOwner_takeOver.mp howner with ⟨rfl, rfl⟩ | hold
      · exact .inl (.inl (if_pos ⟨hlimit, rfl, hne⟩))
      · exact .inr ⟨hold, nofun⟩
    | registered hmy hpeer hmine =>
      rcases isQueueOwner_addQueueOwner.mp howner with ⟨rfl, rfl⟩ | hold
      · exact .inl (.inr (if_pos ⟨hmy, hpeer, hmine, rfl⟩))
      · exact .inr ⟨hold, nofun⟩
    | disconnect =>
      obtain ⟨hold, hne⟩ := isQueueOwner_handleDisconnect.mp howner
      exact .inr ⟨hold, fun heq => hne (SocketEvent.disconnect.inj heq).symm⟩
    | _ => exact .inr ⟨howner, nofun⟩
  · rintro ((htaken | hregistered) | ⟨howner, hstay⟩)
    · exact (handle_of_takesOver htaken).1
    · exact (isQueueOwner_of_registers hregistered).2
    · exact isQueueOwner_handle howner hstay

theorem get?_creators_handle_iff :
    (t.handle R e).1.queueCreators.get? q = some sid ↔
      takesOver q e t = some sid ∨
        t.queueCreators.get? q = some sid ∧ takesOver q e t = none ∧ e ≠ .disconnect sid := by
  cases htaken : takesOver q e t with
  | none => simp [creator_handle_iff htaken]
  | some taker => simp [(handle_of_takesOver htaken).2]

/-- Whom a run leaves as the creator of a queue. -/
theorem creator_iff_leads (R : Reading Payload) (q sid : String)
    (events : List (SocketEvent Payload)) :
    (tablesAfter R events).queueCreators.get? q = some sid ↔ Leads R q sid events := by
  have hstep : ∀ e t, (Tables.act R e t).state.queueCreators.get? q = some sid ↔ _ :=
    fun e t => get?_creators_handle_iff (R := R)
  exact after_iff_since (X := fun t : Tables Payload => t.queueCreators.get? q = some sid) hstep
    (by simp [Tables.init]) events

/-- Whom a run leaves as the owners of a queue. -/
theorem isQueueOwner_iff_owns (R : Reading Payload) (q sid : String)
    (events : List (SocketEvent Payload)) :
    (tablesAfter R events).isQueueOwner q sid ↔ Owns R q sid events := by
  have hstep : ∀ e t, (Tables.act R e t).state.isQueueOwner q sid ↔ _ :=
    fun e t => isQueueOwner_handle_iff (R := R)
  exact after_iff_since (X := fun t : Tables Payload => t.isQueueOwner q sid) hstep
    (by simp [Tables.init, Tables.isQueueOwner]) events

/-- A queue with a creator is online: the creator is connected. -/
theorem Owned.isRecipientOnline_iff (h : Owned t sids) :
    t.isRecipientOnline q = true ↔ ∃ creatorSid, t.queueCreators.get? q = some creatorSid := by
  unfold Tables.isRecipientOnline
  cases hcreator : t.queueCreators.get? q with
  | none => simp
  | some creatorSid =>
    have hopen := (h.creators q creatorSid hcreator).1
    exact iff_of_true ((h.connected creatorSid).mpr hopen) ⟨creatorSid, rfl⟩

/-- What an owner pushes while the queue is online is emitted to its room. -/
theorem handle_push_live (honline : t.isRecipientOnline q = true) (hq : q ≠ "") {now : ℚ}
    {payload : Payload} (howner : t.isQueueOwner q sid)
    (hlimit : (t.limit .pushQueue sid now).1 = false) (hfalsy : R.falsy payload = false)
    (hlarge : R.large payload = false) :
    (t.handle R (.pushQueue sid now q payload)).2 = [.live q payload] := by
  have howner' : (t.limit .pushQueue sid now).2.isQueueOwner q sid := howner
  have honline' : (t.limit .pushQueue sid now).2.isRecipientOnline q = true := honline
  unfold Tables.handle Tables.handlePushQueue
  dsimp only
  rw [hlimit, if_neg (by simp)]
  simp [hq, hfalsy, hlarge, howner', honline']

theorem tablesAfter_disconnect (R : Reading Payload) (before : List (SocketEvent Payload))
    (sid : String) :
    tablesAfter R (before ++ [.disconnect sid]) = (tablesAfter R before).handleDisconnect sid :=
  EStateM.after_append ..

theorem survives_iff {before : List (SocketEvent Payload)} {s1 s2 : String}
    (hlive : Live (before ++ [.disconnect s1])) (hne : s1 ≠ s2) :
    Survives R q s1 s2 before ↔ Owns R q s2 before ∧ ∃ c, c ≠ s1 ∧ Leads R q c before := by
  have hlast := owned_after (R := R) hlive
  have howner : ∀ sid, (tablesAfter R (before ++ [.disconnect s1])).isQueueOwner q sid ↔
      Owns R q sid before ∧ sid ≠ s1 := by
    intro sid
    rw [tablesAfter_disconnect, isQueueOwner_handleDisconnect, isQueueOwner_iff_owns]
  have honline : (tablesAfter R (before ++ [.disconnect s1])).isRecipientOnline q = true ↔
      ∃ c, c ≠ s1 ∧ Leads R q c before := by
    rw [hlast.isRecipientOnline_iff, tablesAfter_disconnect]
    simp only [get?_handleDisconnect_creators, creator_iff_leads, and_comm]
  constructor
  · intro h
    exact ⟨((howner s2).mp h.owned).1, honline.mp h.online⟩
  · rintro ⟨howns, hleads⟩
    refine ⟨honline.mpr hleads, (howner s2).mpr ⟨howns, hne.symm⟩, ?_⟩
    rintro sid hsid hregistered t rfl now payload hlimit hfalsy hlarge
    have hq : q ≠ "" := by
      obtain ⟨early, e, late, -, hregisters, -⟩ := hregistered
      exact (isQueueOwner_of_registers (R := R) hregisters).1
    have hpeer : Owns R q sid before := hregistered.mono fun _ _ => Or.inr
    exact handle_push_live (honline.mpr hleads) hq ((howner sid).mpr ⟨hpeer, hsid⟩) hlimit hfalsy
      hlarge

/-- In every run the tables are in order, and a queue that `s2` has taken over survives the
disconnect of `s1` exactly if `s2` still owns it then, and it is led by another than `s1`. -/
theorem ownership_iff (R : Reading Payload) {events : List (SocketEvent Payload)}
    (hlive : Live events) :
    Owned (tablesAfter R events) (opened events) ∧
      ∀ done e mid s1 s2 q, events = done ++ [e] ++ mid ++ [.disconnect s1] →
        takesOver q e (tablesAfter R done) = some s2 → s1 ≠ s2 →
          (Survives R q s1 s2 (done ++ [e] ++ mid) ↔
            Owns R q s2 (done ++ [e] ++ mid) ∧ ∃ c, c ≠ s1 ∧ Leads R q c (done ++ [e] ++ mid)) := by
  refine ⟨owned_after hlive, ?_⟩
  rintro done e mid s1 s2 q rfl - hne
  exact survives_iff hlive hne

/-- No payload is refused for what it is. -/
def plainReading : Reading String := ⟨fun _ => false, fun _ => false, fun _ => false⟩

/-- A queue with a peer, whose owner has a new socket. -/
def reconnected : List (SocketEvent String) :=
  [.connect "s1" 0, .createQueue "s1" 1 "q", .connect "p" 2, .createQueue "p" 3 "qp",
    .registerPeer "p" (some "qp") (some "q"), .connect "s2" 4]

/-- The new socket has rejoined it before the old one is found dead. -/
theorem ownership_rejoined :
    Survives plainReading "q" "s1" "s2" (reconnected ++ [.rejoinQueue "s2" 5 "q"] ++ []) := by
  have hlive : Live (reconnected ++ [.rejoinQueue "s2" 5 "q"] ++ [] ++ [.disconnect "s1"]) := by
    unfold Live
    decide
  refine ((ownership_iff plainReading hlive).2 reconnected _ [] "s1" "s2" "q" rfl rfl
    (by decide)).mpr ⟨?_, "s2", by decide, ?_⟩
  · exact ⟨reconnected, _, [], rfl, Or.inl rfl, trivial⟩
  · exact ⟨reconnected, _, [], rfl, rfl, trivial⟩

/-- The old socket rejoins the queue after the new one, and goes: nobody leads the queue any more,
though the new socket still owns it. -/
theorem ownership_lost :
    let before := reconnected ++ [.rejoinQueue "s2" 5 "q"] ++ [.rejoinQueue "s1" 6 "q"]
    Live (before ++ [.disconnect "s1"]) ∧
      takesOver "q" (.rejoinQueue "s2" 5 "q") (tablesAfter plainReading reconnected) = some "s2" ∧
      (tablesAfter plainReading (before ++ [.disconnect "s1"])).isQueueOwner "q" "s2" ∧
      ¬ Survives plainReading "q" "s1" "s2" before := by
  refine ⟨?_, rfl, by decide +kernel, fun h => ?_⟩
  · unfold Live
    decide
  · exact absurd h.online (by decide +kernel)

end

end AnonyMus.Relay.InMemory
