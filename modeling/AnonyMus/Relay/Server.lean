import AnonyMus.Lib.Interleave

/-!
# Relay server — queues over Redis and memory

The socket handlers of `transports/relay/server.py` as threads of atomic
commands: one Redis command, one block under a lock, or one emit. A Redis
command may fail, and then the handler falls back to the maps in the memory of
its worker, or goes on without; the fallback commands are put in front of the
rest of the handler. Calls that the rate limiter drops do nothing and are not
part of a run; keys do not expire within one.

* `Shared` — Redis, the memory of every worker, the Socket.IO rooms, and what
  was accepted, emitted and created so far;
* `Instr`, `exec` — the commands;
* `handler`, `World`, `apply` — the sockets, their requests and the threads.
-/

namespace AnonyMus.Relay

open Interleave (Thread stepThread)

/-! ## State -/

/-- `MAX_OFFLINE_QUEUE`. -/
abbrev maxOfflineQueue : ℕ := 500

/-- The keys of Redis: `queue_owner:<q>`, `queue_creator:<q>`, `online_sids` and
`offline_queue:<q>`. -/
structure Redis where
  queueOwner   : String → List String
  queueCreator : String → Option String
  onlineSids   : List String
  offlineQueue : String → List String

/-- The maps of one worker. -/
structure Memory where
  queueOwners        : String → List String
  queueCreators      : String → Option String
  offlineQueue       : String → List String
  socketConnectTimes : List String

/-- A `queue_payload` event, and the sockets that were in the room it went to. -/
structure Emission where
  queueId : String
  payload : String
  reached : List String
deriving DecidableEq

structure Shared (Worker : Type) where
  redis    : Redis
  memory   : Worker → Memory
  /-- The open sockets of each room; every open socket is in the room of its own name. -/
  rooms    : String → List String
  /-- The payloads whose push was authorised, with their queues. -/
  accepted : List (String × String)
  emitted  : List Emission
  /-- The sockets that were sent `queue_created`. -/
  created  : List (String × String)
  /-- The open sockets whose flush of a queue has started to read. -/
  rejoined : List (String × String)

/-! ## Commands -/

/-- What a handler does once `is_queue_owner` has returned true. -/
inductive Next
  | push (payload : String)
  | register (peerQueue : String)
deriving DecidableEq

/-- The commands, named after the Redis command or the locked block. -/
inductive Instr
  -- add_queue_owner
  | saddOwner (queueId sid : String)
  | expireOwner (queueId sid : String)
  | lockAddOwner (queueId sid : String)
  -- add_queue_creator
  | setCreator (queueId sid : String)
  | lockSetCreator (queueId sid : String)
  -- is_queue_owner
  | sismemberOwner (queueId sid : String) (next : Next)
  | lockIsOwner (queueId sid : String) (next : Next)
  -- is_recipient_online
  | getCreator (queueId payload : String)
  | sismemberOnline (queueId payload creatorSid : String)
  | lockGetCreator (queueId payload : String)
  | lockConnected (queueId payload creatorSid : String)
  -- enqueue_offline
  | rpush (queueId payload : String)
  | ltrim (queueId payload : String)
  | expireQueue (queueId payload : String)
  | lockEnqueue (queueId payload : String)
  -- flush_offline_queue
  | lrange (queueId sid : String)
  | deleteQueue (queueId sid : String) (payloads : List String)
  | lockPop (queueId sid : String)
  | emitFlushed (queueId sid payload : String)
  -- the handlers
  | joinRoom (queueId sid : String)
  | emitCreated (queueId sid : String)
  | emitRejoined (queueId sid : String)
  | emitQueuedError (queueId : String)
  | emitPayload (queueId payload : String)
  | lockConnect (sid : String)
  | saddOnline (sid : String)
  | lockDisconnect (sid : String)
  | sremOnline (sid : String)
  | lockCleanUp (sid : String)
deriving DecidableEq

/-- The latest payloads, as many as may be buffered. -/
def latest (payloads : List String) : List String :=
  payloads.drop (payloads.length - maxOfflineQueue)

namespace Shared

variable {Worker : Type} (w : Shared Worker)

def isOpen (sid : String) : Prop := sid ∈ w.rooms sid

instance (sid : String) : Decidable (w.isOpen sid) :=
  inferInstanceAs (Decidable (sid ∈ w.rooms sid))

def setRedis (r : Redis) : Shared Worker := { w with redis := r }

/-- Replace the buffer of a queue in Redis. -/
def setRedisQueue (q : String) (payloads : List String) : Shared Worker :=
  let queues := Function.update w.redis.offlineQueue q payloads
  w.setRedis { w.redis with offlineQueue := queues }

variable [DecidableEq Worker]

def setMemory (worker : Worker) (m : Memory) : Shared Worker :=
  { w with memory := Function.update w.memory worker m }

/-- Replace the buffer of a queue in the memory of a worker. -/
def setMemoryQueue (worker : Worker) (q : String) (payloads : List String) : Shared Worker :=
  let queues := Function.update (w.memory worker).offlineQueue q payloads
  w.setMemory worker { w.memory worker with offlineQueue := queues }

end Shared

section

variable {Worker : Type}

/-- `is_queue_owner` returned true: a push is accepted, a registration goes on. -/
def proceed (q sid : String) (w : Shared Worker) : Next → Shared Worker × List Instr
  | .push payload => ({ w with accepted := w.accepted ++ [(q, payload)] }, [.getCreator q payload])
  | .register peerQueue => (w, [.saddOwner peerQueue sid])

/-- The end of `push_queue`: `ephemeral` tells the payloads whose JSON says so. -/
def route (ephemeral : String → Bool) (q payload : String) (online : Bool) : List Instr :=
  if online then [.emitPayload q payload]
  else if ephemeral payload then [] else [.rpush q payload]

/-- The rest of `flush_offline_queue`, once Redis has been read. -/
def flushed (q sid : String) (payloads : List String) : List Instr :=
  if payloads = [] then [.lockPop q sid] else payloads.map (.emitFlushed q sid)

variable [DecidableEq Worker]

/-- Run one command on a worker: the new state, and the commands it leads to. -/
def exec (ephemeral : String → Bool) (worker : Worker) (fail : Bool) (instr : Instr)
    (w : Shared Worker) : Shared Worker × List Instr :=
  match instr with
  | .saddOwner q sid =>
    let r := w.redis
    let owners := Function.update r.queueOwner q ((r.queueOwner q).insert sid)
    if fail then (w, [.lockAddOwner q sid])
    else (w.setRedis { r with queueOwner := owners }, [.expireOwner q sid])
  | .expireOwner q sid => (w, if fail then [.lockAddOwner q sid] else [])
  | .lockAddOwner q sid =>
    let m := w.memory worker
    let owners := Function.update m.queueOwners q ((m.queueOwners q).insert sid)
    (w.setMemory worker { m with queueOwners := owners }, [])
  | .setCreator q sid =>
    let r := w.redis
    let creators := Function.update r.queueCreator q (some sid)
    if fail then (w, [.lockSetCreator q sid])
    else (w.setRedis { r with queueCreator := creators }, [])
  | .lockSetCreator q sid =>
    let m := w.memory worker
    let creators := Function.update m.queueCreators q (some sid)
    (w.setMemory worker { m with queueCreators := creators }, [])
  | .sismemberOwner q sid next =>
    if fail then (w, [.lockIsOwner q sid next])
    else if sid ∈ w.redis.queueOwner q then proceed q sid w next else (w, [])
  | .lockIsOwner q sid next =>
    if sid ∈ (w.memory worker).queueOwners q then proceed q sid w next else (w, [])
  | .getCreator q payload =>
    if fail then (w, [.lockGetCreator q payload])
    else match w.redis.queueCreator q with
      | some creatorSid => (w, [.sismemberOnline q payload creatorSid])
      | none => (w, [.lockGetCreator q payload])
  | .sismemberOnline q payload creatorSid =>
    -- the creator is known by now, so a failure goes straight to the connection times
    if fail then (w, [.lockConnected q payload creatorSid])
    else (w, route ephemeral q payload (creatorSid ∈ w.redis.onlineSids))
  | .lockGetCreator q payload =>
    match (w.memory worker).queueCreators q with
    | some creatorSid => (w, [.lockConnected q payload creatorSid])
    | none => (w, route ephemeral q payload false)
  | .lockConnected q payload creatorSid =>
    (w, route ephemeral q payload (creatorSid ∈ (w.memory worker).socketConnectTimes))
  | .rpush q payload =>
    if fail then (w, [.lockEnqueue q payload])
    else (w.setRedisQueue q (w.redis.offlineQueue q ++ [payload]), [.ltrim q payload])
  | .ltrim q payload =>
    -- a failure here leaves the payload in Redis and appends it to the memory, too
    if fail then (w, [.lockEnqueue q payload])
    else (w.setRedisQueue q (latest (w.redis.offlineQueue q)), [.expireQueue q payload])
  | .expireQueue q payload =>
    (w, if fail then [.lockEnqueue q payload] else [.emitQueuedError q])
  | .lockEnqueue q payload =>
    (w.setMemoryQueue worker q (latest ((w.memory worker).offlineQueue q ++ [payload])),
      [.emitQueuedError q])
  | .lrange q sid =>
    let w := if w.isOpen sid then { w with rejoined := (q, sid) :: w.rejoined } else w
    (w, if fail then [.lockPop q sid] else [.deleteQueue q sid (w.redis.offlineQueue q)])
  | .deleteQueue q sid payloads =>
    -- what was read is emitted even if the deletion fails
    (if fail then w else w.setRedisQueue q [], flushed q sid payloads)
  | .lockPop q sid =>
    (w.setMemoryQueue worker q [],
      ((w.memory worker).offlineQueue q).map (.emitFlushed q sid))
  | .emitFlushed q sid payload =>
    ({ w with emitted := w.emitted ++ [⟨q, payload, w.rooms sid⟩] }, [])
  | .joinRoom q sid =>
    (if w.isOpen sid then
        { w with rooms := Function.update w.rooms q ((w.rooms q).insert sid) }
      else w, [])
  | .emitCreated q sid => ({ w with created := (q, sid) :: w.created }, [])
  | .emitRejoined _ _ => (w, [])
  | .emitQueuedError _ => (w, [])
  | .emitPayload q payload =>
    ({ w with emitted := w.emitted ++ [⟨q, payload, w.rooms q⟩] }, [])
  | .lockConnect sid =>
    let m := w.memory worker
    (w.setMemory worker { m with socketConnectTimes := m.socketConnectTimes.insert sid }, [])
  | .saddOnline sid =>
    let r := w.redis
    (if fail then w else w.setRedis { r with onlineSids := r.onlineSids.insert sid }, [])
  | .lockDisconnect sid =>
    let m := w.memory worker
    let times := m.socketConnectTimes.filter (· ≠ sid)
    (w.setMemory worker { m with socketConnectTimes := times }, [])
  | .sremOnline sid =>
    let r := w.redis
    (if fail then w else w.setRedis { r with onlineSids := r.onlineSids.filter (· ≠ sid) }, [])
  | .lockCleanUp sid =>
    let m := w.memory worker
    let owners q := (m.queueOwners q).filter (· ≠ sid)
    let creators q := if m.queueCreators q = some sid then none else m.queueCreators q
    (w.setMemory worker { m with queueOwners := owners, queueCreators := creators }, [])

end

/-! ## Handlers -/

/-- What a socket asks for. `createQueue` carries the UUID that is drawn. -/
inductive Request
  | createQueue (queueId : String)
  | rejoinQueue (queueId : String)
  | registerPeer (myQueue peerQueue : String)
  | pushQueue (queueId payload : String)
deriving DecidableEq

/-- The characters that `str.strip` removes. -/
def isBlank (c : Char) : Bool :=
  let n := c.toNat
  (9 ≤ n && n ≤ 13) || (28 ≤ n && n ≤ 32) || n == 0x85 || n == 0xa0 || n == 0x1680 ||
    (0x2000 ≤ n && n ≤ 0x200a) || n == 0x2028 || n == 0x2029 || n == 0x202f || n == 0x205f ||
    n == 0x3000

def strip (s : String) : String :=
  String.ofList ((s.toList.dropWhile isBlank).reverse.dropWhile isBlank).reverse

/-- The handler of a request of socket `sid`. -/
def handler (sid : String) : Request → List Instr
  | .createQueue queueId =>
    [.saddOwner queueId sid, .setCreator queueId sid, .joinRoom queueId sid,
      .emitCreated queueId sid, .lrange queueId sid]
  | .rejoinQueue data =>
    let queueId := strip data
    if queueId = "" then []
    else [.saddOwner queueId sid, .setCreator queueId sid, .joinRoom queueId sid,
      .emitRejoined queueId sid, .lrange queueId sid]
  | .registerPeer myQueue peerQueue =>
    if myQueue = "" ∨ peerQueue = "" then []
    else [.sismemberOwner myQueue sid (.register peerQueue)]
  | .pushQueue queueId payload =>
    if queueId = "" ∨ payload = "" then []
    else if 100 * 1024 < payload.length then []
    else [.sismemberOwner queueId sid (.push payload)]

/-- The queue ids a request mentions. -/
def Request.names : Request → List String
  | .createQueue queueId => [queueId]
  | .rejoinQueue data => [strip data]
  | .registerPeer myQueue peerQueue => [myQueue, peerQueue]
  | .pushQueue queueId _ => [queueId]

structure World (Worker : Type) where
  shared   : Shared Worker
  threads  : List (Thread Worker Instr)
  /-- The open sockets with their workers. -/
  sockets  : List (String × Worker)
  /-- The socket ids, and the queue ids in requests, so far. -/
  sids     : List String
  queueIds : List String

/-- The names that have been in use. -/
def World.names {Worker : Type} (w : World Worker) : List String := w.sids ++ w.queueIds

def World.init {Worker : Type} : World Worker where
  shared :=
    { redis := ⟨fun _ => [], fun _ => none, [], fun _ => []⟩
      memory := fun _ => ⟨fun _ => [], fun _ => none, fun _ => [], []⟩
      rooms := fun _ => [], accepted := [], emitted := [], created := [], rejoined := [] }
  threads := []
  sockets := []
  sids := []
  queueIds := []

/-- A socket opens on a worker, sends a request or closes, or thread `i` runs
its next command, failing or not. -/
inductive Event (Worker : Type)
  | connect (sid : String) (worker : Worker)
  | request (sid : String) (r : Request)
  | disconnect (sid : String)
  | run (i : ℕ) (fail : Bool)
deriving DecidableEq

/-- A UUID that is drawn has not been in use. -/
def Request.Fresh (names : List String) : Request → Prop
  | .createQueue queueId => queueId ∉ names
  | _ => True

instance (names : List String) : (r : Request) → Decidable (r.Fresh names)
  | .createQueue queueId => inferInstanceAs (Decidable (queueId ∉ names))
  | .rejoinQueue _ | .registerPeer _ _ | .pushQueue _ _ => .isTrue trivial

section

variable {Worker : Type} [DecidableEq Worker] (ephemeral : String → Bool)

/-- The world after an event, if the event is possible. -/
def apply (w : World Worker) : Event Worker → Option (World Worker)
  | .connect sid worker =>
    if sid ∈ w.names then none
    else some { w with
      shared := { w.shared with
        rooms := Function.update w.shared.rooms sid (sid :: w.shared.rooms sid) }
      threads := w.threads ++ [⟨worker, [.lockConnect sid, .saddOnline sid]⟩]
      sockets := (sid, worker) :: w.sockets
      sids := sid :: w.sids }
  | .request sid r =>
    match w.sockets.lookup sid with
    | none => none
    | some worker =>
      if r.Fresh w.names then some { w with
        threads := w.threads ++ [⟨worker, handler sid r⟩]
        queueIds := r.names ++ w.queueIds }
      else none
  | .disconnect sid =>
    match w.sockets.lookup sid with
    | none => none
    | some worker => some { w with
        -- from here on nothing reaches the socket
        shared := { w.shared with
          rooms := fun room => (w.shared.rooms room).filter (· ≠ sid)
          rejoined := w.shared.rejoined.filter (·.2 ≠ sid) }
        threads := w.threads ++
          [⟨worker, [.lockDisconnect sid, .sremOnline sid, .lockCleanUp sid]⟩]
        sockets := w.sockets.filter (·.1 ≠ sid) }
  | .run i fail =>
    (stepThread (exec ephemeral) i fail w.threads w.shared).map fun out =>
      { w with shared := out.1, threads := out.2 }

end

end AnonyMus.Relay
