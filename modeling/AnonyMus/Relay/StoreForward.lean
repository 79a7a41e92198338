import AnonyMus.Relay.Server

/-!
# Relay server — store and forward

Payloads pushed to a queue while its owner is away are buffered in Redis, or in
the memory of a worker when a command fails, and flushed on the next rejoin.

* `acceptedOn`, `emittedOn`, `buffered` — what happened to the payloads of a queue;
* `Orderly` — the steps that neither lose nor repeat nor overtake a payload;
* `Inv` — accepted payloads are emitted, being flushed, buffered or in flight;
* `Quiet`, `exec_quiet_inert`, `exec_quiet_asks`, `exec_quiet_other` — the
  commands that leave them where they are.
-/

namespace AnonyMus.Relay

open Interleave

variable {Worker : Type}

/-! ## The payloads of one queue -/

section

variable (ephemeral : String → Bool) (q : String)

/-- The payloads accepted for the queue that are to be delivered. -/
def Shared.acceptedOn (s : Shared Worker) : List String :=
  (s.accepted.filter fun a => a.1 = q ∧ ephemeral a.2 = false).map Prod.snd

/-- Those emitted to at least one open socket of its room. -/
def Shared.emittedOn (s : Shared Worker) : List String :=
  (s.emitted.filter fun e => e.queueId = q ∧ ephemeral e.payload = false ∧ e.reached ≠ []).map
    Emission.payload

/-- The buffer of the queue in Redis (`none`) or in the memory of a worker. -/
def Shared.buffered (s : Shared Worker) : Option Worker → List String
  | none => s.redis.offlineQueue q
  | some worker => (s.memory worker).offlineQueue q

/-- An open socket has started to read the queue. -/
def Shared.Rejoined (s : Shared Worker) : Prop := ∃ r ∈ s.rejoined, r.1 = q

instance (s : Shared Worker) : Decidable (s.Rejoined q) :=
  inferInstanceAs (Decidable (∃ r ∈ s.rejoined, r.1 = q))

/-- The payload that a flush of the queue is about to emit. -/
def flushing : Instr → Option String
  | .emitFlushed q' _ payload => if q' = q then some payload else none
  | _ => none

/-- A push to the queue whose payload is neither emitted nor buffered yet. -/
def inFlight : Instr → Bool
  | .getCreator q' payload => q' = q ∧ ephemeral payload = false
  | .sismemberOnline q' payload _ => q' = q ∧ ephemeral payload = false
  | .lockGetCreator q' payload => q' = q ∧ ephemeral payload = false
  | .lockConnected q' payload _ => q' = q ∧ ephemeral payload = false
  | .emitPayload q' payload => q' = q ∧ ephemeral payload = false
  | .rpush q' _ => q' = q
  | .lockEnqueue q' _ => q' = q
  | _ => false

/-- A flush of the queue that has read Redis and is about to delete. -/
def deleting : Instr → Bool
  | .deleteQueue q' _ _ => q' = q
  | _ => false

/-- A command on the worker that will read this store, at the latest in the
commands it leads to; a flush at its start may turn to any. -/
def reads [DecidableEq Worker] (worker : Worker) (store : Option Worker) : Instr → Bool
  | .lrange q' _ => q' = q
  | .deleteQueue q' _ payloads =>
    q' = q ∧ if payloads = [] then store = some worker else store = none
  | .lockPop q' _ => q' = q ∧ store = some worker
  | _ => false

/-- Some thread will read this store. -/
def Awaited [DecidableEq Worker] (store : Option Worker) (threads : List (Thread Worker Instr)) :
    Prop :=
  ∃ t ∈ threads, ∃ instr ∈ t.todo, reads q t.loc store instr = true

instance [DecidableEq Worker] (store : Option Worker) (threads : List (Thread Worker Instr)) :
    Decidable (Awaited q store threads) :=
  inferInstanceAs (Decidable (∃ t ∈ threads, ∃ instr ∈ t.todo, reads q t.loc store instr = true))

/-! ## Orderly steps -/

variable [DecidableEq Worker]

variable (s : Shared Worker) (threads : List (Thread Worker Instr))

/-- It is the turn of `payload`: it was accepted right after as many as are
emitted, being flushed or buffered in `store`. -/
def Turn (store : Option Worker) (payload : String) : Prop :=
  (s.acceptedOn ephemeral q)[(s.emittedOn ephemeral q).length +
    (heldAll (flushing q) threads).length + (s.buffered q store).length]? = some payload

/-- `payload` may be buffered in `store`: it is its turn, nothing is buffered
elsewhere, there is room, and if an open socket has rejoined a flush on its way
will still find it. -/
structure Fits (store : Option Worker) (payload : String) : Prop where
  turn  : Turn ephemeral q s threads store payload
  sole  : ∀ other, other ≠ store → s.buffered q other = []
  room  : (s.buffered q store).length < maxOfflineQueue
  await : s.Rejoined q → Awaited q store threads

/-- What is required of a command before it runs. -/
def Allowed (worker : Worker) (fail : Bool) : Instr → Prop
  | .emitPayload q' payload =>
    -- a live payload reaches somebody and overtakes nothing
    q' = q → ephemeral payload = false → s.rooms q ≠ [] ∧
      heldAll (flushing q) threads = [] ∧ (∀ store, s.buffered q store = []) ∧
      Turn ephemeral q s threads none payload
  | .rpush q' payload =>
    -- no flush is between its read and its deletion
    q' = q → fail = false → Fits ephemeral q s threads none payload ∧
      (pending threads).countP (deleting q) = 0
  | .lockEnqueue q' payload => q' = q → Fits ephemeral q s threads (some worker) payload
  | .ltrim q' _ => q' = q → fail = false
  | .expireQueue q' _ => q' = q → fail = false
  | .lrange q' _ =>
    -- a flush reads the store that holds what is buffered, with no other flush under way
    q' = q → if fail = false ∧ s.buffered q none ≠ [] then
        heldAll (flushing q) threads = [] ∧ (pending threads).countP (deleting q) = 0
      else ∀ store, store ≠ some worker → s.buffered q store = []
  | .deleteQueue q' _ payloads => q' = q → payloads ≠ [] → fail = false
  | .lockPop q' _ =>
    q' = q → s.buffered q (some worker) ≠ [] → heldAll (flushing q) threads = []
  | .emitFlushed q' sid _ => q' = q → s.isOpen sid
  | _ => True

/-- An event is orderly if the command it runs is allowed. -/
def Orderly (w : World Worker) : Event Worker → Prop
  | .run i fail =>
    match w.threads[i]? with
    | some ⟨worker, instr :: _⟩ => Allowed ephemeral q w.shared w.threads worker fail instr
    | _ => True
  | _ => True

/-! ## The invariant -/

/-- The accepted payloads are, in this order: emitted, being flushed, buffered
in `store` and nowhere else, in flight. -/
structure Line (store : Option Worker) : Prop where
  sole  : ∀ other, other ≠ store → s.buffered q other = []
  order : s.emittedOn ephemeral q ++ heldAll (flushing q) threads ++ s.buffered q store <+:
    s.acceptedOn ephemeral q
  total : (s.acceptedOn ephemeral q).length = (s.emittedOn ephemeral q).length +
    (heldAll (flushing q) threads).length + (s.buffered q store).length +
    (pending threads).countP (inFlight ephemeral q)

/-- No accepted payload is lost, repeated or overtaken so far, and none will be left behind. -/
structure Inv : Prop where
  line   : ∃ store, Line ephemeral q s threads store
  once   : HeldOnce (flushing q) threads
  size   : ∀ store, (s.buffered q store).length ≤ maxOfflineQueue
  read   : ∀ sid payloads, .deleteQueue q sid payloads ∈ pending threads →
    payloads = s.buffered q none
  single : s.buffered q none ≠ [] → (pending threads).countP (deleting q) ≤ 1 ∧
    (0 < (pending threads).countP (deleting q) → heldAll (flushing q) threads = [])
  await  : s.Rejoined q → ∀ store, s.buffered q store ≠ [] → Awaited q store threads

theorem Inv.init : Inv ephemeral q (World.init : World Worker).shared World.init.threads where
  line := ⟨none, fun other _ => by cases other <;> rfl, List.nil_prefix, rfl⟩
  once := Nat.zero_le _
  size store := by cases store <;> exact Nat.zero_le _
  read _ _ hmem := by cases hmem
  single h := absurd rfl h
  await := by rintro ⟨_, hmem, -⟩; cases hmem

end

section

variable {ephemeral : String → Bool} {q : String} [DecidableEq Worker]
  {s s' : Shared Worker} {l₁ l₂ : List (Thread Worker Instr)} {worker : Worker}
  {instr : Instr} {pre rest : List Instr}

/-! ## What a command does to a queue -/

omit [DecidableEq Worker] in
theorem buffered_setRedis {r : Redis} (h : r.offlineQueue q = s.redis.offlineQueue q)
    (store : Option Worker) : (s.setRedis r).buffered q store = s.buffered q store := by
  cases store with
  | none => exact h
  | some worker' => rfl

theorem buffered_setMemory {m : Memory} (h : m.offlineQueue q = (s.memory worker).offlineQueue q)
    (store : Option Worker) : (s.setMemory worker m).buffered q store = s.buffered q store := by
  cases store with
  | none => rfl
  | some worker' =>
    by_cases hw : worker' = worker
    · subst hw
      simp [Shared.buffered, Shared.setMemory, h]
    · simp [Shared.buffered, Shared.setMemory, hw]

omit [DecidableEq Worker] in
theorem buffered_setRedisQueue (q' : String) (l : List String) (store : Option Worker) :
    (s.setRedisQueue q' l).buffered q store =
      if q' = q ∧ store = none then l else s.buffered q store := by
  cases store with
  | none =>
    by_cases hq : q = q'
    · subst hq
      simp [Shared.buffered, Shared.setRedisQueue, Shared.setRedis]
    · simp [Shared.buffered, Shared.setRedisQueue, Shared.setRedis, hq, Ne.symm hq]
  | some worker' =>
    rw [if_neg (by simp)]
    rfl

theorem buffered_setMemoryQueue (q' : String) (l : List String) (store : Option Worker) :
    (s.setMemoryQueue worker q' l).buffered q store =
      if q' = q ∧ store = some worker then l else s.buffered q store := by
  cases store with
  | none =>
    rw [if_neg (by simp)]
    rfl
  | some worker' =>
    by_cases hw : worker' = worker
    · subst hw
      by_cases hq : q = q'
      · subst hq
        simp [Shared.buffered, Shared.setMemoryQueue, Shared.setMemory]
      · simp [Shared.buffered, Shared.setMemoryQueue, Shared.setMemory, hq, Ne.symm hq]
    · simp [Shared.buffered, Shared.setMemoryQueue, Shared.setMemory, hw]

variable (ephemeral q s s' worker instr pre) in
/-- The command does nothing to the queue: its payloads stay where they are,
and a push in flight stays in flight. -/
structure Quiet : Prop where
  accepted : s'.acceptedOn ephemeral q = s.acceptedOn ephemeral q
  emitted  : s'.emittedOn ephemeral q = s.emittedOn ephemeral q
  buffered : ∀ store, s'.buffered q store = s.buffered q store
  rejoined : s'.Rejoined q → s.Rejoined q
  held     : flushing q instr = none ∧ pre.filterMap (flushing q) = []
  inFlight : pre.countP (inFlight ephemeral q) = [instr].countP (inFlight ephemeral q)
  deleting : deleting q instr = false ∧ pre.countP (deleting q) = 0
  reads    : ∀ store, reads q worker store instr = false

/-- The commands that have nothing to do with payloads. -/
def Inert : Instr → Bool
  | .saddOwner _ _ => true
  | .expireOwner _ _ => true
  | .lockAddOwner _ _ => true
  | .setCreator _ _ => true
  | .lockSetCreator _ _ => true
  | .sismemberOwner _ _ (.register _) => true
  | .lockIsOwner _ _ (.register _) => true
  | .joinRoom _ _ => true
  | .emitCreated _ _ => true
  | .emitRejoined _ _ => true
  | .emitQueuedError _ => true
  | .lockConnect _ => true
  | .saddOnline _ => true
  | .lockDisconnect _ => true
  | .sremOnline _ => true
  | .lockCleanUp _ => true
  | _ => false

variable (ephemeral q s worker) in
theorem exec_inert (fail : Bool) (h : Inert instr = true) :
    (exec ephemeral worker fail instr s).1.accepted = s.accepted ∧
      (exec ephemeral worker fail instr s).1.emitted = s.emitted ∧
      (exec ephemeral worker fail instr s).1.rejoined = s.rejoined ∧
      (∀ store, (exec ephemeral worker fail instr s).1.buffered q store = s.buffered q store) ∧
      ∀ instr' ∈ (exec ephemeral worker fail instr s).2, Inert instr' = true := by
  cases instr with
  | saddOwner q' sid =>
    cases fail <;> exact ⟨rfl, rfl, rfl, buffered_setRedis rfl, by simp [exec, Inert]⟩
  | expireOwner q' sid => cases fail <;> exact ⟨rfl, rfl, rfl, fun _ => rfl, by simp [exec, Inert]⟩
  | lockAddOwner q' sid =>
    exact ⟨rfl, rfl, rfl, fun store => buffered_setMemory (by rfl) store, by simp [exec]⟩
  | setCreator q' sid =>
    cases fail <;> exact ⟨rfl, rfl, rfl, buffered_setRedis rfl, by simp [exec, Inert]⟩
  | lockSetCreator q' sid =>
    exact ⟨rfl, rfl, rfl, fun store => buffered_setMemory (by rfl) store, by simp [exec]⟩
  | sismemberOwner q' sid next =>
    cases next with
    | push payload => cases h
    | register peerQueue =>
      cases fail
      · simp only [exec, Bool.false_eq_true, if_false]
        split <;> exact ⟨rfl, rfl, rfl, fun _ => rfl, by simp [proceed, Inert]⟩
      · exact ⟨rfl, rfl, rfl, fun _ => rfl, by simp [exec, Inert]⟩
  | lockIsOwner q' sid next =>
    cases next with
    | push payload => cases h
    | register peerQueue =>
      simp only [exec]
      split <;> exact ⟨rfl, rfl, rfl, fun _ => rfl, by simp [proceed, Inert]⟩
  | joinRoom q' sid =>
    simp only [exec]
    -- the socket joins, or is gone by now
    split <;> exact ⟨rfl, rfl, rfl, fun store => by cases store <;> rfl, by simp⟩
  | emitCreated q' sid => exact ⟨rfl, rfl, rfl, fun store => by cases store <;> rfl, by simp [exec]⟩
  | emitRejoined q' sid => exact ⟨rfl, rfl, rfl, fun _ => rfl, by simp [exec]⟩
  | emitQueuedError q' => exact ⟨rfl, rfl, rfl, fun _ => rfl, by simp [exec]⟩
  | lockConnect sid =>
    exact ⟨rfl, rfl, rfl, fun store => buffered_setMemory (by rfl) store, by simp [exec]⟩
  | saddOnline sid =>
    cases fail <;> exact ⟨rfl, rfl, rfl, buffered_setRedis rfl, by simp [exec]⟩
  | lockDisconnect sid =>
    exact ⟨rfl, rfl, rfl, fun store => buffered_setMemory (by rfl) store, by simp [exec]⟩
  | sremOnline sid =>
    cases fail <;> exact ⟨rfl, rfl, rfl, buffered_setRedis rfl, by simp [exec]⟩
  | lockCleanUp sid =>
    exact ⟨rfl, rfl, rfl, fun store => buffered_setMemory (by rfl) store, by simp [exec]⟩
  | _ => cases h

variable (ephemeral q) in
omit [DecidableEq Worker] in
theorem inert_counts (h : Inert instr = true) :
    flushing q instr = none ∧ inFlight ephemeral q instr = false ∧ deleting q instr = false := by
  cases instr <;> first | exact ⟨rfl, rfl, rfl⟩ | cases h

theorem inert_reads (h : Inert instr = true) (store : Option Worker) :
    reads q worker store instr = false := by
  cases instr <;> first | rfl | cases h

variable (ephemeral q) in
omit [DecidableEq Worker] in
theorem countP_inert {l : List Instr} (h : ∀ instr ∈ l, Inert instr = true) :
    l.filterMap (flushing q) = [] ∧ l.countP (inFlight ephemeral q) = 0 ∧
      l.countP (deleting q) = 0 := by
  refine ⟨List.filterMap_eq_nil_iff.mpr fun instr hmem => (inert_counts ephemeral q (h _ hmem)).1,
    List.countP_eq_zero.mpr fun instr hmem => ?_, List.countP_eq_zero.mpr fun instr hmem => ?_⟩
  · rw [(inert_counts ephemeral q (h _ hmem)).2.1]
    exact Bool.false_ne_true
  · rw [(inert_counts ephemeral q (h _ hmem)).2.2]
    exact Bool.false_ne_true

theorem exec_quiet_inert (fail : Bool) (h : Inert instr = true) :
    Quiet ephemeral q s (exec ephemeral worker fail instr s).1 worker instr
      (exec ephemeral worker fail instr s).2 := by
  obtain ⟨hacc, hem, hrej, hbuf, hpre⟩ := exec_inert ephemeral q s worker fail h
  obtain ⟨hfl, hin, hdel⟩ := inert_counts ephemeral q h
  obtain ⟨hfl', hin', hdel'⟩ := countP_inert ephemeral q hpre
  refine ⟨?_, ?_, hbuf, ?_, ⟨hfl, hfl'⟩, ?_, ⟨hdel, hdel'⟩, inert_reads h⟩
  · rw [Shared.acceptedOn, hacc, Shared.acceptedOn]
  · rw [Shared.emittedOn, hem, Shared.emittedOn]
  · rw [Shared.Rejoined, hrej]
    exact id
  · rw [hin', List.countP_singleton, hin]
    rfl

/-- The questions of a push about its recipient. -/
def Asks : Instr → Bool
  | .getCreator _ _ => true
  | .sismemberOnline _ _ _ => true
  | .lockGetCreator _ _ => true
  | .lockConnected _ _ _ => true
  | _ => false

/-- What is left of a push once its recipient is known to be online or not. -/
theorem quiet_route {q' payload : String} (instr : Instr)
    (hinstr : Asks instr = true ∧
      inFlight ephemeral q instr = decide (q' = q ∧ ephemeral payload = false)) (online : Bool) :
    Quiet ephemeral q s s worker instr (route ephemeral q' payload online) := by
  have hroute : (route ephemeral q' payload online).filterMap (flushing q) = [] ∧
      (route ephemeral q' payload online).countP (inFlight ephemeral q) =
        (if q' = q ∧ ephemeral payload = false then 1 else 0) ∧
      (route ephemeral q' payload online).countP (deleting q) = 0 := by
    cases online <;> cases heph : ephemeral payload <;> by_cases hq : q' = q <;>
      simp [route, heph, hq, inFlight, flushing, deleting]
  obtain ⟨hfl, hin, hdel⟩ := hroute
  obtain ⟨hasks, hflight⟩ := hinstr
  refine ⟨rfl, rfl, fun _ => rfl, fun h => h, ⟨?_, hfl⟩, ?_, ⟨?_, hdel⟩, ?_⟩
  · cases instr <;> first | rfl | cases hasks
  · rw [hin, List.countP_singleton, hflight]
    simp
  · cases instr <;> first | rfl | cases hasks
  · intro store
    cases instr <;> first | rfl | cases hasks

/-- A push that only finds out whether its recipient is online stays in flight. -/
theorem exec_quiet_asks (fail : Bool) (h : Asks instr = true) :
    Quiet ephemeral q s (exec ephemeral worker fail instr s).1 worker instr
      (exec ephemeral worker fail instr s).2 := by
  cases instr with
  | getCreator q' payload =>
    cases fail
    · simp only [exec, Bool.false_eq_true, if_false]
      cases s.redis.queueCreator q' <;>
        exact ⟨rfl, rfl, fun _ => rfl, fun h => h, ⟨rfl, rfl⟩, rfl, ⟨rfl, rfl⟩, fun _ => rfl⟩
    · exact ⟨rfl, rfl, fun _ => rfl, fun h => h, ⟨rfl, rfl⟩, rfl, ⟨rfl, rfl⟩, fun _ => rfl⟩
  | sismemberOnline q' payload sid =>
    cases fail
    · exact quiet_route (.sismemberOnline q' payload sid) ⟨rfl, rfl⟩ _
    · exact ⟨rfl, rfl, fun _ => rfl, fun h => h, ⟨rfl, rfl⟩, rfl, ⟨rfl, rfl⟩, fun _ => rfl⟩
  | lockGetCreator q' payload =>
    simp only [exec]
    cases (s.memory worker).queueCreators q' with
    | none =>
      dsimp only
      exact quiet_route (.lockGetCreator q' payload) ⟨rfl, rfl⟩ false
    | some creatorSid =>
      exact ⟨rfl, rfl, fun _ => rfl, fun h => h, ⟨rfl, rfl⟩, rfl, ⟨rfl, rfl⟩, fun _ => rfl⟩
  | lockConnected q' payload sid => exact quiet_route (.lockConnected q' payload sid) ⟨rfl, rfl⟩ _
  | _ => cases h

/-- The queue that a command on payloads is about. -/
def target : Instr → Option String
  | .sismemberOwner q' _ (.push _) => some q'
  | .lockIsOwner q' _ (.push _) => some q'
  | .rpush q' _ => some q'
  | .ltrim q' _ => some q'
  | .expireQueue q' _ => some q'
  | .lockEnqueue q' _ => some q'
  | .lrange q' _ => some q'
  | .deleteQueue q' _ _ => some q'
  | .lockPop q' _ => some q'
  | .emitFlushed q' _ _ => some q'
  | .emitPayload q' _ => some q'
  | _ => none

/-- An authorised push that need not be delivered on this queue. -/
theorem quiet_proceed {q' payload : String} (instr : Instr) (sid : String)
    (hpayload : ¬ (q' = q ∧ ephemeral payload = false))
    (hinstr : flushing q instr = none ∧ inFlight ephemeral q instr = false ∧
      deleting q instr = false ∧ ∀ store, reads q worker store instr = false) :
    Quiet ephemeral q s (proceed q' sid s (.push payload)).1 worker instr
      (proceed q' sid s (.push payload)).2 := by
  obtain ⟨hfl, hin, hdel, hreads⟩ := hinstr
  refine ⟨?_, rfl, fun store => by cases store <;> rfl, fun h => h, ⟨hfl, rfl⟩, ?_, ⟨hdel, rfl⟩,
    hreads⟩
  · simp only [proceed, Shared.acceptedOn, List.filter_append, List.map_append]
    rw [List.filter_singleton, decide_eq_false hpayload, cond_false, List.map_nil, List.append_nil]
  · rw [List.countP_singleton, hin]
    simp only [proceed, List.countP_singleton, inFlight, decide_eq_false hpayload]

/-- A command on the payloads of another queue is quiet. -/
theorem exec_quiet_other {q' : String} (fail : Bool) (htarget : target instr = some q')
    (hq : q' ≠ q) :
    Quiet ephemeral q s (exec ephemeral worker fail instr s).1 worker instr
      (exec ephemeral worker fail instr s).2 := by
  cases instr with
  | sismemberOwner q'' sid next =>
    cases next with
    | push payload =>
      obtain rfl := Option.some.inj htarget
      cases fail
      · simp only [exec, Bool.false_eq_true, if_false]
        split
        · exact quiet_proceed _ sid (fun h => hq h.1) ⟨rfl, rfl, rfl, fun _ => rfl⟩
        · exact ⟨rfl, rfl, fun _ => rfl, fun h => h, ⟨rfl, rfl⟩, rfl, ⟨rfl, rfl⟩, fun _ => rfl⟩
      · exact ⟨rfl, rfl, fun _ => rfl, fun h => h, ⟨rfl, rfl⟩, rfl, ⟨rfl, rfl⟩, fun _ => rfl⟩
    | register peerQueue => cases htarget
  | lockIsOwner q'' sid next =>
    cases next with
    | push payload =>
      obtain rfl := Option.some.inj htarget
      simp only [exec]
      split
      · exact quiet_proceed _ sid (fun h => hq h.1) ⟨rfl, rfl, rfl, fun _ => rfl⟩
      · exact ⟨rfl, rfl, fun _ => rfl, fun h => h, ⟨rfl, rfl⟩, rfl, ⟨rfl, rfl⟩, fun _ => rfl⟩
    | register peerQueue => cases htarget
  | rpush q'' payload =>
    obtain rfl := Option.some.inj htarget
    cases fail
    · refine ⟨rfl, rfl, fun store => ?_, fun h => h, ⟨rfl, rfl⟩, ?_, ⟨rfl, rfl⟩, fun _ => rfl⟩
      · exact (buffered_setRedisQueue _ _ _).trans (if_neg fun h => hq h.1)
      · simp [exec, inFlight, hq]
    · exact ⟨rfl, rfl, fun _ => rfl, fun h => h, ⟨rfl, rfl⟩, rfl, ⟨rfl, rfl⟩, fun _ => rfl⟩
  | ltrim q'' payload =>
    obtain rfl := Option.some.inj htarget
    cases fail
    · refine ⟨rfl, rfl, fun store => ?_, fun h => h, ⟨rfl, rfl⟩, rfl, ⟨rfl, rfl⟩, fun _ => rfl⟩
      exact (buffered_setRedisQueue _ _ _).trans (if_neg fun h => hq h.1)
    · refine ⟨rfl, rfl, fun _ => rfl, fun h => h, ⟨rfl, rfl⟩, ?_, ⟨rfl, rfl⟩, fun _ => rfl⟩
      simp [exec, inFlight, hq]
  | expireQueue q'' payload =>
    obtain rfl := Option.some.inj htarget
    refine ⟨rfl, rfl, fun _ => rfl, fun h => h, ⟨rfl, ?_⟩, ?_, ⟨rfl, ?_⟩, fun _ => rfl⟩ <;>
      cases fail <;> simp [exec, inFlight, flushing, deleting, hq]
  | lockEnqueue q'' payload =>
    obtain rfl := Option.some.inj htarget
    refine ⟨rfl, rfl, fun store => ?_, fun h => h, ⟨rfl, rfl⟩, ?_, ⟨rfl, rfl⟩, fun _ => rfl⟩
    · exact (buffered_setMemoryQueue _ _ _).trans (if_neg fun h => hq h.1)
    · simp [exec, inFlight, hq]
  | lrange q'' sid =>
    obtain rfl := Option.some.inj htarget
    have hreads : ∀ store : Option Worker, reads q worker store (.lrange q'' sid) = false := by
      simp [reads, hq]
    -- the flush of another queue leaves the sockets that rejoined this one
    have hrej : (exec ephemeral worker fail (.lrange q'' sid) s).1.Rejoined q →
        s.Rejoined q := by
      rintro ⟨r, hmem, hr⟩
      refine ⟨r, ?_, hr⟩
      simp only [exec] at hmem
      split at hmem
      · refine (List.mem_cons.mp hmem).resolve_left fun h => hq ?_
        rw [← hr, h]
      · exact hmem
    refine ⟨?_, ?_, fun store => ?_, hrej, ⟨rfl, ?_⟩, ?_, ⟨rfl, ?_⟩, hreads⟩
    · simp only [exec]
      split <;> rfl
    · simp only [exec]
      split <;> rfl
    · simp only [exec]
      split <;> cases store <;> rfl
    · cases fail <;> simp [exec, flushing]
    · cases fail <;> simp [exec, inFlight]
    · cases fail <;> simp [exec, deleting, hq]
  | deleteQueue q'' sid payloads =>
    obtain rfl := Option.some.inj htarget
    refine ⟨?_, ?_, fun store => ?_, ?_, ⟨rfl, ?_⟩, ?_, ⟨?_, ?_⟩, ?_⟩
    · cases fail <;> rfl
    · cases fail <;> rfl
    · cases fail
      · exact (buffered_setRedisQueue _ _ _).trans (if_neg fun h => hq h.1)
      · rfl
    · cases fail <;> exact fun h => h
    · by_cases hp : payloads = [] <;> simp [exec, flushed, flushing, hp, hq, Function.comp_def]
    · by_cases hp : payloads = [] <;> simp [exec, flushed, inFlight, hp, List.countP_map, Function.comp_def]
    · simp [deleting, hq]
    · by_cases hp : payloads = [] <;> simp [exec, flushed, deleting, hp, List.countP_map, Function.comp_def]
    · simp [reads, hq]
  | lockPop q'' sid =>
    obtain rfl := Option.some.inj htarget
    refine ⟨rfl, rfl, fun store => ?_, fun h => h, ⟨rfl, ?_⟩, ?_, ⟨rfl, ?_⟩, ?_⟩
    · exact (buffered_setMemoryQueue _ _ _).trans (if_neg fun h => hq h.1)
    · simp [exec, flushing, hq, Function.comp_def]
    · simp [exec, inFlight, List.countP_map, Function.comp_def]
    · simp [exec, deleting, List.countP_map, Function.comp_def]
    · simp [reads, hq]
  | emitFlushed q'' sid payload =>
    obtain rfl := Option.some.inj htarget
    refine ⟨rfl, ?_, fun store => by cases store <;> rfl, fun h => h, ⟨?_, rfl⟩, rfl, ⟨rfl, rfl⟩, fun _ => rfl⟩
    · simp [exec, Shared.emittedOn, hq]
    · simp [flushing, hq]
  | emitPayload q'' payload =>
    obtain rfl := Option.some.inj htarget
    refine ⟨rfl, ?_, fun store => by cases store <;> rfl, fun h => h, ⟨rfl, rfl⟩, ?_, ⟨rfl, rfl⟩, fun _ => rfl⟩
    · simp [exec, Shared.emittedOn, hq]
    · simp [exec, inFlight, hq]
  | _ => cases htarget

end

end AnonyMus.Relay
