import Mathlib.Order.Nat
import AnonyMus.Lib.Dict
import AnonyMus.Lib.Feed
import AnonyMus.Lib.Interleave

/-!
# Relay — presence

`transports/relay/routers/presence.py`: the last status of each node, and one queue per subscriber. The
event loop runs one coroutine at a time, so a coroutine is atomic between two of its `await`s and
`yield`s; a subscriber's generator may be resumed at any time. Each update carries its number, which
the program does not keep.

* `update`, `Stream.advance` — `update_presence`, and the generator of `stream_presence`;
* `Stream.Step`, `step_of_advance` — what a step of a subscriber can be;
* `Stream.Current` — what a connected subscriber has yielded and has in its queue;
* `Roomy` — the updates that find room in each queue, and no queue that was filled before its
  generator has begun;
* `Current.step`, `Current.update` — steps that keep a subscriber current;
* `presence_converges` — over every run of such steps;
* `presence_diverges` — a subscriber that misses an update, and one that goes back to an older one.
-/

namespace AnonyMus.Relay.Presence

open Feed Interleave

/-! ## State -/

structure PresenceUpdateRequest where
  onionAddress : String
  status       : String
deriving DecidableEq

/-- The bounds and the pattern of the fields. -/
def PresenceUpdateRequest.valid (body : PresenceUpdateRequest) : Bool :=
  16 ≤ body.onionAddress.length && body.onionAddress.length ≤ 128 &&
    ["online", "offline", "typing"].contains body.status

/-- An entry of `_presence`; `number` counts the updates before it. -/
structure Record where
  number       : ℕ
  onionAddress : String
  status       : String
  updatedAt    : ℕ
deriving DecidableEq

/-- What a generator yields. -/
inductive Chunk
  | data (record : Record)
  | keepalive
deriving DecidableEq

def Chunk.text : Chunk → String
  | data record => "data: " ++ record.status ++ "\n\n"
  | keepalive => ": keepalive\n\n"

def Chunk.record? : Chunk → Option Record
  | data record => some record
  | keepalive => none

/-- Where a generator is suspended. -/
inductive Phase
  /-- not begun -/
  | created
  /-- at a `yield` -/
  | yielding
  /-- `await request.is_disconnected()` -/
  | polling
  /-- `await asyncio.wait_for(queue.get(), timeout=30)` -/
  | getting
  | closed
deriving DecidableEq

/-- A subscriber: its queue, whether that is in `_subscribers[onionAddress]`, its generator with what it
has yielded, the oldest first, and whether the client is there. -/
structure Stream where
  onionAddress : String
  queue        : List Record
  subscribed   : Bool
  phase        : Phase
  yielded      : List Chunk
  connected    : Bool
deriving DecidableEq

/-- `_presence` and all subscribers; `updates` counts the updates. -/
structure Router where
  presence : Dict String Record
  streams  : List Stream
  updates  : ℕ

def Router.init : Router := ⟨.empty, [], 0⟩

/-! ## Steps -/

def maxsize : ℕ := 50

/-- A queue that is full counts as dead and leaves the set. -/
def Stream.putNowait (record : Record) (st : Stream) : Stream :=
  if st.queue.length < maxsize then { st with queue := st.queue ++ [record] }
  else { st with subscribed := false }

/-- Fan-out to all SSE subscribers for this address. -/
def Stream.offer (record : Record) (st : Stream) : Stream :=
  if st.onionAddress = record.onionAddress ∧ st.subscribed = true then st.putNowait record else st

def update (body : PresenceUpdateRequest) (now : ℕ) (router : Router) : Router :=
  let record : Record :=
    { number := router.updates, onionAddress := body.onionAddress, status := body.status,
      updatedAt := now }
  { presence := router.presence.insert body.onionAddress record
    streams := router.streams.map (Stream.offer record)
    updates := router.updates + 1 }

/-- `stream_presence` up to the response, whose generator has not begun. -/
def subscribe (onionAddress : String) (router : Router) : Router :=
  let st : Stream :=
    { onionAddress := onionAddress, queue := [], subscribed := true, phase := .created, yielded := [],
      connected := true }
  { router with streams := router.streams ++ [st] }

def Stream.yield (chunk : Chunk) (st : Stream) : Stream :=
  { st with yielded := st.yielded ++ [chunk], phase := .yielding }

/-- The generator ends, and its `finally` block takes the queue out of the set. -/
def Stream.finish (st : Stream) : Stream := { st with subscribed := false, phase := .closed }

/-- What can happen to a subscriber. -/
inductive Advance
  /-- The generator begins. -/
  | start
  /-- It goes on after a `yield`. -/
  | resume
  /-- `is_disconnected` has an answer. -/
  | polled (disconnected : Bool)
  /-- `queue.get` has an event. -/
  | got
  /-- The 30 seconds are over. -/
  | timeout
  /-- The client goes. -/
  | hangUp
  /-- The server drops the generator of a client that is gone. -/
  | cancel
deriving DecidableEq

/-- The generator begins, where `record` is the entry of `_presence` for the address. -/
def Stream.begin (record : Option Record) (st : Stream) : Stream :=
  match record with
  -- Send current status immediately as the first event
  | some record => st.yield (.data record)
  | none => { st with phase := .polling }

/-- The first event of the queue is yielded. -/
def Stream.take (st : Stream) : Option Stream :=
  match st.queue with
  | event :: rest => some (({ st with queue := rest } : Stream).yield (.data event))
  | [] => none

/-- One step of a subscriber, where it is possible. -/
def Stream.advance (record : Option Record) (st : Stream) : Advance → Option Stream
  | .start => if st.phase = .created then some (st.begin record) else none
  | .resume => if st.phase = .yielding then some { st with phase := .polling } else none
  | .polled disconnected =>
    if st.phase = .polling ∧ (disconnected = true → st.connected = false) then
      if disconnected then some st.finish else some { st with phase := .getting }
    else none
  | .got => if st.phase = .getting then st.take else none
  | .timeout => if st.phase = .getting then some (st.yield .keepalive) else none
  | .hangUp => if st.connected = true then some { st with connected := false } else none
  | .cancel =>
    if st.connected = false ∧ st.phase ≠ .closed then
      -- a generator that has not begun has no `finally` block to run
      if st.phase = .created then some { st with phase := .closed } else some st.finish
    else none

inductive Event
  | update (body : PresenceUpdateRequest) (now : ℕ)
  | subscribe (onionAddress : String)
  | stream (i : ℕ) (e : Advance)
deriving DecidableEq

/-- A body that is not valid is refused. -/
def apply (router : Router) : Event → Option Router
  | .update body now => if body.valid then some (update body now router) else none
  | .subscribe onionAddress => some (subscribe onionAddress router)
  | .stream i e => do
    let st ← router.streams[i]?
    let st' ← st.advance (router.presence.get? st.onionAddress) e
    return { router with streams := router.streams.set i st' }

/-! ## Subscribers that are current -/

/-- The statuses that a subscriber has yielded, each with its update. -/
def Stream.statuses (st : Stream) : List Record := st.yielded.filterMap Chunk.record?

/-- A subscriber has all news: before its generator has begun, what is queued is what it will find;
afterwards, what it has yielded and what is queued are in order and end with the current entry. -/
structure Stream.Current (record : Option Record) (st : Stream) : Prop where
  subscribed : st.subscribed = true
  opened     : st.phase ≠ .closed
  waiting    : st.phase = .created → st.yielded = [] ∧ (st.queue = [] ∨ st.queue = record.toList)
  begun      : st.phase ≠ .created → UpToDate Record.number (st.statuses ++ st.queue) record

variable {record : Option Record} {st st' : Stream}

@[simp] theorem statuses_yield_data (r : Record) (st : Stream) :
    (st.yield (.data r)).statuses = st.statuses ++ [r] := by
  simp [Stream.statuses, Stream.yield, Chunk.record?]

@[simp] theorem statuses_yield_keepalive (st : Stream) :
    (st.yield .keepalive).statuses = st.statuses := by
  simp [Stream.statuses, Stream.yield, Chunk.record?]

/-- What a step of a subscriber can be. -/
inductive Stream.Step (record : Option Record) (st : Stream) : Stream → Prop
  | begins (hphase : st.phase = .created) : Step record st (st.begin record)
  | goesOn (phase : Phase) (hbegun : st.phase ≠ .created) (hphase : phase ≠ .created)
      (hopen : phase ≠ .closed) : Step record st { st with phase := phase }
  | takes {event : Record} {rest : List Record} (hphase : st.phase = .getting)
      (hqueue : st.queue = event :: rest) :
      Step record st (({ st with queue := rest } : Stream).yield (.data event))
  | keepsAlive (hphase : st.phase = .getting) : Step record st (st.yield .keepalive)
  | hangsUp (hconnected : st.connected = true) : Step record st { st with connected := false }
  | ends (subscribed : Bool) (hgone : st.connected = false) :
      Step record st { st with subscribed := subscribed, phase := .closed }

theorem step_of_advance {e : Advance} (hadvance : st.advance record e = some st') :
    st.Step record st' := by
  cases e with
  | start =>
    rw [Stream.advance] at hadvance
    split_ifs at hadvance with hphase
    obtain rfl := Option.some.inj hadvance
    exact .begins hphase
  | resume =>
    rw [Stream.advance] at hadvance
    split_ifs at hadvance with hphase
    obtain rfl := Option.some.inj hadvance
    exact .goesOn .polling (by rw [hphase]; exact Phase.noConfusion) Phase.noConfusion
      Phase.noConfusion
  | polled disconnected =>
    rw [Stream.advance] at hadvance
    split_ifs at hadvance with hphase hgone
    · -- only a client that is gone is reported so
      obtain rfl := Option.some.inj hadvance
      exact .ends false (hphase.2 hgone)
    · obtain rfl := Option.some.inj hadvance
      exact .goesOn .getting (by rw [hphase.1]; exact Phase.noConfusion) Phase.noConfusion
        Phase.noConfusion
  | got =>
    rw [Stream.advance, Stream.take] at hadvance
    split_ifs at hadvance with hphase
    rcases hqueue : st.queue with _ | ⟨event, rest⟩
    · rw [hqueue] at hadvance
      cases hadvance
    · rw [hqueue] at hadvance
      obtain rfl := Option.some.inj hadvance
      exact .takes hphase hqueue
  | timeout =>
    rw [Stream.advance] at hadvance
    split_ifs at hadvance with hphase
    obtain rfl := Option.some.inj hadvance
    exact .keepsAlive hphase
  | hangUp =>
    rw [Stream.advance] at hadvance
    split_ifs at hadvance with hconnected
    obtain rfl := Option.some.inj hadvance
    exact .hangsUp hconnected
  | cancel =>
    rw [Stream.advance] at hadvance
    split_ifs at hadvance with hgone hcreated
    · obtain rfl := Option.some.inj hadvance
      exact .ends st.subscribed hgone.1
    · obtain rfl := Option.some.inj hadvance
      exact .ends false hgone.1

/-- A subscriber begins with nothing. -/
theorem Stream.Current.of_new {onionAddress : String} (record : Option Record) :
    Stream.Current record ⟨onionAddress, [], true, .created, [], true⟩ where
  subscribed := rfl
  opened := Phase.noConfusion
  waiting _ := ⟨rfl, .inl rfl⟩
  begun h := absurd rfl h

namespace Stream.Current

/-- The snapshot comes before what was queued, which is the same entry or nothing. -/
theorem begins (h : st.Current record) (hphase : st.phase = .created) :
    (st.begin record).Current record := by
  obtain ⟨hyielded, hqueue⟩ := h.waiting hphase
  have hnone : st.statuses = [] := by rw [Stream.statuses, hyielded]; rfl
  rcases record with _ | r
  · refine ⟨h.subscribed, Phase.noConfusion, Phase.noConfusion, fun _ => ?_⟩
    show UpToDate Record.number (st.statuses ++ st.queue) none
    rw [hnone, hqueue.elim id id]
    exact .of_current none
  · refine ⟨h.subscribed, Phase.noConfusion, Phase.noConfusion, fun _ => ?_⟩
    show UpToDate Record.number ((st.yield (.data r)).statuses ++ st.queue) (some r)
    rw [statuses_yield_data, hnone]
    -- an update between the subscription and the start is the snapshot as well
    rcases hqueue with hempty | hsame
    · rw [hempty]
      exact .of_current (some r)
    · rw [hsame]
      exact .of_twice (some r)

/-- A generator that goes on elsewhere has yielded and left in the queue what it had. -/
theorem of_phase (h : st.Current record) {phase : Phase} (hbegun : st.phase ≠ .created)
    (hphase : phase ≠ .created) (hopen : phase ≠ .closed) :
    Stream.Current record { st with phase := phase } where
  subscribed := h.subscribed
  opened := hopen
  waiting hcreated := absurd hcreated hphase
  begun _ := h.begun hbegun

/-- An event goes from the queue to what is yielded. -/
theorem take (h : st.Current record) (hphase : st.phase = .getting) {event : Record}
    {rest : List Record} (hqueue : st.queue = event :: rest) :
    (({ st with queue := rest } : Stream).yield (.data event)).Current record := by
  have hbegun := h.begun (by rw [hphase]; exact Phase.noConfusion)
  refine ⟨h.subscribed, Phase.noConfusion, Phase.noConfusion, fun _ => ?_⟩
  rw [statuses_yield_data]
  rwa [hqueue, List.append_cons] at hbegun

theorem keepalive (h : st.Current record) (hphase : st.phase = .getting) :
    (st.yield .keepalive).Current record where
  subscribed := h.subscribed
  opened := Phase.noConfusion
  waiting := Phase.noConfusion
  begun _ := by
    rw [statuses_yield_keepalive]
    exact h.begun (by rw [hphase]; exact Phase.noConfusion)

/-- What happens to a subscriber that stays connected keeps it current. -/
theorem step (h : st.Current record) (hstep : st.Step record st') (hstays : st'.connected = true) :
    st'.Current record := by
  cases hstep with
  | begins hphase => exact h.begins hphase
  | goesOn phase hbegun hphase hopen => exact h.of_phase hbegun hphase hopen
  | takes hphase hqueue => exact h.take hphase hqueue
  | keepsAlive hphase => exact h.keepalive hphase
  | hangsUp _ => exact absurd hstays Bool.false_ne_true
  | ends _ hgone => exact absurd hstays (by rw [hgone]; exact Bool.false_ne_true)

/-- An update that finds room: it is queued behind what was there. -/
theorem update {new : Record} (h : st.Current record) (hroom : st.queue.length < maxsize)
    (hfirst : st.phase = .created → st.queue = [])
    (hnew : ∀ c ∈ record, c.number ≤ new.number) : (st.putNowait new).Current (some new) := by
  rw [Stream.putNowait, if_pos hroom]
  refine ⟨h.subscribed, h.opened, ?_, ?_⟩
  · intro hphase
    exact ⟨(h.waiting hphase).1, .inr (by rw [hfirst hphase]; rfl)⟩
  · intro hphase
    show UpToDate Record.number (st.statuses ++ (st.queue ++ [new])) (some new)
    rw [← List.append_assoc]
    exact (h.begun hphase).push hnew

end Stream.Current

/-- A step leaves the address, and brings no client back. -/
theorem Stream.Step.frame (hstep : st.Step record st') :
    st'.onionAddress = st.onionAddress ∧ (st'.connected = true → st.connected = true) := by
  cases hstep with
  | begins _ => rcases record with _ | r <;> exact ⟨rfl, id⟩
  | hangsUp hconnected => exact ⟨rfl, fun _ => hconnected⟩
  | goesOn | takes | keepsAlive | ends => exact ⟨rfl, id⟩

/-! ## Every run -/

/-- An update finds room in the queue of each connected subscriber, and nothing in that of one whose
generator has not begun. -/
def Roomy (router : Router) : Event → Prop
  | .update body _ => ∀ st ∈ router.streams, st.onionAddress = body.onionAddress →
      st.connected = true → st.queue.length < maxsize ∧ (st.phase = .created → st.queue = [])
  | .subscribe _ | .stream _ _ => True

instance (router : Router) (e : Event) : Decidable (Roomy router e) :=
  match e with
  | .update _ _ => inferInstanceAs (Decidable (∀ _ ∈ _, _))
  | .subscribe _ | .stream _ _ => .isTrue trivial

/-- The entries have the numbers of updates that have been, and all connected subscribers are current. -/
structure Sound (router : Router) : Prop where
  numbers : ∀ onionAddress record, router.presence.get? onionAddress = some record →
    record.number < router.updates
  current : ∀ st ∈ router.streams, st.connected = true →
    st.Current (router.presence.get? st.onionAddress)

variable {router router' : Router}

/-- A fan-out leaves the address and the client. -/
theorem offer_frame (new : Record) (st : Stream) :
    (st.offer new).onionAddress = st.onionAddress ∧ (st.offer new).connected = st.connected := by
  rw [Stream.offer, Stream.putNowait]
  split_ifs <;> exact ⟨rfl, rfl⟩

theorem Sound.update (h : Sound router) {body : PresenceUpdateRequest} {now : ℕ}
    (hroom : Roomy router (.update body now)) : Sound (update body now router) := by
  constructor
  · intro onionAddress record hrecord
    show record.number < router.updates + 1
    have hentry := (Dict.get?_insert _ _ _ _).symm.trans hrecord
    split_ifs at hentry
    · obtain rfl := Option.some.inj hentry
      exact Nat.lt_succ_self _
    · exact Nat.lt_succ_of_lt (h.numbers onionAddress record hentry)
  · intro st' hst' hconnected
    obtain ⟨st, hst, rfl⟩ := List.mem_map.mp hst'
    obtain ⟨haddress, hclient⟩ := offer_frame
      ⟨router.updates, body.onionAddress, body.status, now⟩ st
    rw [hclient] at hconnected
    have hcurrent := h.current st hst hconnected
    rw [haddress]
    refine Eq.subst (motive := fun record => Stream.Current record _)
      (Dict.get?_insert _ _ _ _).symm ?_
    by_cases hmatch : st.onionAddress = body.onionAddress
    · rw [if_pos hmatch, Stream.offer, if_pos ⟨hmatch, hcurrent.subscribed⟩]
      obtain ⟨hfree, hfirst⟩ := hroom st hst hmatch hconnected
      exact hcurrent.update hfree hfirst fun c hc =>
        Nat.le_of_lt (h.numbers st.onionAddress c hc)
    · rw [if_neg hmatch, Stream.offer, if_neg fun hboth => hmatch hboth.1]
      exact hcurrent

theorem Sound.subscribe (h : Sound router) (onionAddress : String) :
    Sound (subscribe onionAddress router) := by
  refine ⟨h.numbers, ?_⟩
  intro st hst hconnected
  rcases List.mem_append.mp hst with hold | hnew
  · exact h.current st hold hconnected
  · obtain rfl := List.mem_singleton.mp hnew
    exact .of_new _

theorem Sound.stream (h : Sound router) {i : ℕ} {st st' : Stream} {e : Advance}
    (hget : router.streams[i]? = some st)
    (hadvance : st.advance (router.presence.get? st.onionAddress) e = some st') :
    Sound { router with streams := router.streams.set i st' } := by
  refine ⟨h.numbers, ?_⟩
  intro other hother hconnected
  rcases List.mem_or_eq_of_mem_set hother with hold | rfl
  · exact h.current other hold hconnected
  · have hstep := step_of_advance hadvance
    obtain ⟨haddress, hclient⟩ := hstep.frame
    rw [haddress]
    exact (h.current st (List.mem_of_getElem? hget) (hclient hconnected)).step hstep hconnected

theorem Sound.apply {e : Event} (h : Sound router) (hroom : Roomy router e)
    (happly : apply router e = some router') : Sound router' := by
  cases e with
  | update body now =>
    rw [Presence.apply] at happly
    split_ifs at happly
    obtain rfl := Option.some.inj happly
    exact h.update hroom
  | subscribe onionAddress =>
    obtain rfl := Option.some.inj happly
    exact h.subscribe onionAddress
  | stream i e =>
    obtain ⟨st, hget, hrest⟩ := Option.bind_eq_some_iff.mp happly
    obtain ⟨st', hadvance, hlast⟩ := Option.bind_eq_some_iff.mp hrest
    obtain rfl := Option.some.inj hlast
    exact h.stream hget hadvance

theorem sound_init : Sound .init where
  numbers _ _ hrecord := absurd hrecord.symm (Option.some_ne_none _)
  current _ hst := absurd hst List.not_mem_nil

/-- **When subscribers converge.** In every run whose updates find room in the queues of the connected
subscribers, and nothing in those whose generators have not begun: a connected subscriber has yielded
statuses in the order of their updates, and when its generator has begun and its queue is empty, the
last one is the current entry for the address. -/
theorem presence_converges (hrun : Run apply Roomy .init router) :
    ∀ st ∈ router.streams, st.connected = true →
      st.statuses.Pairwise (·.number ≤ ·.number) ∧
        (st.phase ≠ .created → st.queue = [] →
          st.statuses.getLast? = router.presence.get? st.onionAddress) := by
  have hsound : Sound router :=
    hrun.invariant sound_init fun _ _ _ h hroom happly => h.apply hroom happly
  intro st hst hconnected
  have hcurrent := hsound.current st hst hconnected
  by_cases hphase : st.phase = .created
  · -- before its generator has begun, nothing has been yielded
    have hnone : st.statuses = [] := by rw [Stream.statuses, (hcurrent.waiting hphase).1]; rfl
    rw [hnone]
    exact ⟨List.Pairwise.nil, fun h => absurd hphase h⟩
  · have hbegun := hcurrent.begun hphase
    refine ⟨(List.pairwise_append.mp hbegun.ordered).1, fun _ hempty => ?_⟩
    have hlast := hbegun.last
    rwa [hempty, List.append_nil] at hlast

def nodeAddress : String := "abcdefghijklmnop.onion"

/-- A subscriber hears of each update before the next. -/
def promptSubscriber : List Event :=
  [.subscribe nodeAddress, .update ⟨nodeAddress, "online"⟩ 0, .stream 0 .start, .stream 0 .resume,
    .stream 0 (.polled false), .stream 0 .got, .stream 0 .resume, .stream 0 (.polled false),
    .update ⟨nodeAddress, "offline"⟩ 0, .stream 0 .got]

def heard (router : Router) : Bool :=
  router.streams.any fun st =>
    st.connected && st.phase == .yielding && st.queue.isEmpty &&
      st.statuses.map Record.number == [0, 0, 1]

theorem presence_converges_prompt :
    ∃ router, heard router = true ∧ ∀ st ∈ router.streams, st.connected = true →
      st.statuses.Pairwise (·.number ≤ ·.number) ∧
        (st.phase ≠ .created → st.queue = [] →
          st.statuses.getLast? = router.presence.get? st.onionAddress) := by
  have hprompt : (runAll apply Roomy promptSubscriber .init).any heard = true := by decide +kernel
  obtain ⟨router, hrun, hheard⟩ := Run.exists_of_runAll hprompt
  exact ⟨router, hheard, presence_converges hrun⟩

/-! ## A slow subscriber and a late one -/

/-- A subscriber reads what is in its queue. -/
def reads (count : ℕ) : List Event :=
  (List.replicate count [.stream 0 .got, .stream 0 .resume, .stream 0 (.polled false)]).flatten

/-- 51 updates while the client reads nothing, then it reads all there is. -/
def slowSubscriber : List Event :=
  [.subscribe nodeAddress, .stream 0 .start, .stream 0 (.polled false)] ++
    List.replicate 50 (.update ⟨nodeAddress, "online"⟩ 0) ++
    [.update ⟨nodeAddress, "offline"⟩ 0] ++ reads 50

/-- Two updates before the generator begins. -/
def lateSubscriber : List Event :=
  [.subscribe nodeAddress, .update ⟨nodeAddress, "online"⟩ 0, .update ⟨nodeAddress, "offline"⟩ 0,
    .stream 0 .start, .stream 0 .resume, .stream 0 (.polled false), .stream 0 .got]

/-- A subscriber that waits for the next event has heard of the first status, but the entry is the
second. -/
def behind (router : Router) : Bool :=
  router.streams.any fun st =>
    st.connected && st.phase == .getting && st.queue.isEmpty &&
      st.statuses.getLast?.map Record.status == some "online" &&
      (router.presence.get? st.onionAddress).map Record.status == some "offline"

/-- A subscriber has heard of the second status before the first. -/
def reordered (router : Router) : Bool :=
  router.streams.any fun st =>
    st.connected && st.yielded.map Chunk.text == ["data: offline\n\n", "data: online\n\n"] &&
      st.statuses.map Record.number == [1, 0]

/-- The slow subscriber stays connected to the stream and is never told of the last update; the late one
is told that the node is offline, and then that it is online. -/
theorem presence_diverges :
    (∃ router, Run apply (fun _ _ => True) .init router ∧ behind router = true) ∧
      ∃ router, Run apply (fun _ _ => True) .init router ∧ reordered router = true := by
  have hslow : (runAll apply (fun _ _ => True) slowSubscriber .init).any behind = true := by
    decide +kernel
  have hlate : (runAll apply (fun _ _ => True) lateSubscriber .init).any reordered = true := by
    decide +kernel
  exact ⟨Run.exists_of_runAll hslow, Run.exists_of_runAll hlate⟩

end AnonyMus.Relay.Presence
