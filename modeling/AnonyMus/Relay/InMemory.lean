import AnonyMus.Relay.Server

/-!
# Relay server — without Redis

The socket handlers of `transports/relay/server.py` on one worker without
Redis, each run as a whole and in the order in which its socket has sent the
events. A payload is of any type; what its JSON says about it is a parameter.

* `Server` — the maps in memory and the Socket.IO rooms;
* `handleCreateQueue`, `handleRegisterPeer`, `handlePushQueue`, … — the handlers;
* `refused_handlePushQueue` — a push passes `is_queue_owner` or is refused.
-/

namespace AnonyMus.Relay.InMemory

structure Server (Payload : Type) where
  queueOwners        : String → List String
  queueCreators      : String → Option String
  offlineQueue       : String → List Payload
  socketConnectTimes : List String
  rooms              : String → List String
  /-- How many queue ids have been drawn. -/
  drawn              : ℕ
  /-- For the proofs: the pushes of sockets that `is_queue_owner` does not know. -/
  refused            : List (String × String × Payload)

/-- What the server sends to a socket. -/
inductive Outgoing (Payload : Type)
  | queueCreated (queueId : String)
  | queuePayload (queueId : String) (payload : Payload)
  | pushQueueError (queueId error : String)

variable {Payload : Type}

def Server.init : Server Payload where
  queueOwners _ := []
  queueCreators _ := none
  offlineQueue _ := []
  socketConnectTimes := []
  rooms _ := []
  drawn := 0
  refused := []

/-- What a handler sends, and to which sockets. -/
abbrev Sent (Payload : Type) := List (String × Outgoing Payload)

namespace Server

variable (s : Server Payload)

def addQueueOwner (queueId sid : String) : Server Payload :=
  { s with
    queueOwners := Function.update s.queueOwners queueId ((s.queueOwners queueId).insert sid) }

def addQueueCreator (queueId sid : String) : Server Payload :=
  { s with queueCreators := Function.update s.queueCreators queueId (some sid) }

def isQueueOwner (queueId sid : String) : Prop := sid ∈ s.queueOwners queueId

instance (queueId sid : String) : Decidable (s.isQueueOwner queueId sid) :=
  inferInstanceAs (Decidable (sid ∈ s.queueOwners queueId))

def isRecipientOnline (queueId : String) : Bool :=
  match s.queueCreators queueId with
  | none => false
  | some creatorSid => creatorSid ∈ s.socketConnectTimes

/-- The latest payloads of a queue, as many as may be buffered. -/
def enqueueOffline (queueId : String) (payload : Payload) : Server Payload :=
  let payloads := s.offlineQueue queueId ++ [payload]
  { s with
    offlineQueue := Function.update s.offlineQueue queueId
      (payloads.drop (payloads.length - maxOfflineQueue)) }

def flushOfflineQueue (queueId sid : String) : Server Payload × Sent Payload :=
  ({ s with offlineQueue := Function.update s.offlineQueue queueId [] },
    (s.offlineQueue queueId).map fun payload => (sid, .queuePayload queueId payload))

def joinRoom (queueId sid : String) : Server Payload :=
  { s with rooms := Function.update s.rooms queueId ((s.rooms queueId).insert sid) }

/-! ## Handlers -/

def handleConnect (sid : String) : Server Payload :=
  { s with socketConnectTimes := s.socketConnectTimes.insert sid }

/-- `queueId` is the UUID that is drawn. -/
def handleCreateQueue (sid queueId : String) : Server Payload × Sent Payload :=
  let s := { s with drawn := s.drawn + 1 }
  let s := ((s.addQueueOwner queueId sid).addQueueCreator queueId sid).joinRoom queueId sid
  let (s, flushed) := s.flushOfflineQueue queueId sid
  (s, (sid, .queueCreated queueId) :: flushed)

/-- A `null` or an empty text names no queue. -/
def handleRegisterPeer (sid : String) (myQueue peerQueue : Option String) : Server Payload :=
  match myQueue, peerQueue with
  | some myQueue, some peerQueue =>
    if myQueue = "" ∨ peerQueue = "" then s
    else if s.isQueueOwner myQueue sid then s.addQueueOwner peerQueue sid
    else s
  | _, _ => s

/-- `large` tells the payloads of more than 100 KiB, `ephemeral` those whose JSON says so. -/
def handlePushQueue (large ephemeral : Payload → Bool) (sid queueId : String) (payload : Payload) :
    Server Payload × Sent Payload :=
  let refused := if s.isQueueOwner queueId sid then s.refused
    else s.refused ++ [(sid, queueId, payload)]
  let s := { s with refused := refused }
  if queueId = "" ∨ large payload then (s, [])
  else if ¬ s.isQueueOwner queueId sid then (s, [])
  else if s.isRecipientOnline queueId then
    (s, (s.rooms queueId).map fun member => (member, .queuePayload queueId payload))
  else if ephemeral payload then (s, [])
  else (s.enqueueOffline queueId payload,
    [(sid, .pushQueueError queueId "recipient_offline_queued")])

theorem refused_handlePushQueue (large ephemeral : Payload → Bool) (sid queueId : String)
    (payload : Payload) : (s.handlePushQueue large ephemeral sid queueId payload).1.refused =
      if s.isQueueOwner queueId sid then s.refused else s.refused ++ [(sid, queueId, payload)] := by
  unfold handlePushQueue
  dsimp only
  -- no branch changes what has been refused
  repeat' first | rfl | split

def handleDisconnect (sid : String) : Server Payload :=
  { s with
    socketConnectTimes := s.socketConnectTimes.filter (· ≠ sid)
    rooms := fun room => (s.rooms room).filter (· ≠ sid)
    queueOwners := fun q => (s.queueOwners q).filter (· ≠ sid)
    queueCreators := fun q =>
      if s.queueCreators q = some sid then none else s.queueCreators q }

end Server

end AnonyMus.Relay.InMemory
