import AnonyMus.Relay.Emission
import Mathlib.Data.Fintype.Option

/-!
# Relay server — quiescent states

* `Inv.exec`, `Inv.apply` — every orderly event keeps the accepted payloads in line;
* `emitted_of_orderly` — in every run of orderly events, once nothing is pending
  and the recipient has rejoined, the payloads emitted are those accepted;
* `emitted_lost` — a payload buffered between `lrange` and `delete`.
-/

namespace AnonyMus.Relay

open Interleave

variable {Worker : Type} [DecidableEq Worker] {ephemeral : String → Bool} {q : String}
  {s s' : Shared Worker} {l₁ l₂ : List (Thread Worker Instr)} {worker : Worker}
  {instr : Instr} {pre rest : List Instr}

/-! ## Commands -/

theorem latest_of_length_le {l : List String} (h : l.length ≤ maxOfflineQueue) : latest l = l := by
  rw [latest, Nat.sub_eq_zero_of_le h, List.drop_zero]

/-- The push was authorised: its payload is accepted. -/
theorem Inv.proceed (h : Inv ephemeral q s (l₁ ++ ⟨worker, instr :: rest⟩ :: l₂))
    (payload sid : String)
    (hinstr : flushing q instr = none ∧ inFlight ephemeral q instr = false ∧
      deleting q instr = false ∧ ∀ store, reads q worker store instr = false) :
    Inv ephemeral q (Relay.proceed q sid s (.push payload)).1
      (l₁ ++ ⟨worker, (Relay.proceed q sid s (.push payload)).2 ++ rest⟩ :: l₂) := by
  cases hpayload : ephemeral payload with
  | false => exact h.accept sid hpayload ⟨hinstr.1, hinstr.2.1, hinstr.2.2.2⟩
  | true =>
    have hskip : ¬ (q = q ∧ ephemeral payload = false) := by simp [hpayload]
    exact h.quiet (quiet_proceed instr sid hskip hinstr)

/-- A push is checked against the owners of the queue. -/
theorem Inv.authorise {owner : Prop} [Decidable owner] {payload sid : String}
    (h : Inv ephemeral q s (l₁ ++ ⟨worker, instr :: rest⟩ :: l₂))
    (hinstr : flushing q instr = none ∧ inFlight ephemeral q instr = false ∧
      deleting q instr = false ∧ ∀ store, reads q worker store instr = false) :
    let out := if owner then Relay.proceed q sid s (.push payload) else (s, [])
    Inv ephemeral q out.1 (l₁ ++ ⟨worker, out.2 ++ rest⟩ :: l₂) := by
  intro out
  by_cases howner : owner
  · rw [show out = _ from if_pos howner]
    exact h.proceed payload sid hinstr
  · rw [show out = (s, []) from if_neg howner]
    obtain ⟨hfl, hin, hdel, hreads⟩ := hinstr
    refine h.quiet ⟨rfl, rfl, fun _ => rfl, id, ⟨hfl, rfl⟩, ?_, ⟨hdel, rfl⟩, hreads⟩
    rw [List.countP_singleton, hin]
    rfl

omit [DecidableEq Worker] in
/-- Every command is on the payloads of a queue, or asks, or has nothing to do with payloads. -/
theorem inert_or_asks_or_target (instr : Instr) :
    Inert instr = true ∨ Asks instr = true ∨ ∃ q', target instr = some q' := by
  cases instr with
  | sismemberOwner q' sid next =>
    cases next with
    | push payload => exact Or.inr (Or.inr ⟨q', rfl⟩)
    | register peerQueue => exact Or.inl rfl
  | lockIsOwner q' sid next =>
    cases next with
    | push payload => exact Or.inr (Or.inr ⟨q', rfl⟩)
    | register peerQueue => exact Or.inl rfl
  | _ => first | exact Or.inl rfl | exact Or.inr (Or.inl rfl) | exact Or.inr (Or.inr ⟨_, rfl⟩)

/-- A command on the payloads of the queue itself. -/
theorem Inv.exec_target {fail : Bool}
    (h : Inv ephemeral q s (l₁ ++ ⟨worker, instr :: rest⟩ :: l₂))
    (hallowed : Allowed ephemeral q s (l₁ ++ ⟨worker, instr :: rest⟩ :: l₂) worker fail instr)
    (htarget : target instr = some q) :
    Inv ephemeral q (exec ephemeral worker fail instr s).1
      (l₁ ++ ⟨worker, (exec ephemeral worker fail instr s).2 ++ rest⟩ :: l₂) := by
  cases instr with
  | sismemberOwner q' sid next =>
    cases next with
    | register peerQueue => cases htarget
    | push payload =>
      obtain rfl := Option.some.inj htarget
      cases fail
      · exact h.authorise ⟨rfl, rfl, rfl, fun _ => rfl⟩
      · exact h.quiet
          ⟨rfl, rfl, fun _ => rfl, id, ⟨rfl, rfl⟩, rfl, ⟨rfl, rfl⟩, fun _ => rfl⟩
  | lockIsOwner q' sid next =>
    cases next with
    | register peerQueue => cases htarget
    | push payload =>
      obtain rfl := Option.some.inj htarget
      exact h.authorise ⟨rfl, rfl, rfl, fun _ => rfl⟩
  | rpush q' payload =>
    obtain rfl := Option.some.inj htarget
    cases fail
    · obtain ⟨hfits, hnone⟩ := hallowed rfl rfl
      refine h.enqueue ⟨⟨rfl, rfl⟩, rfl⟩ (fun _ => rfl) ⟨by simp [inFlight], rfl⟩ hfits
        (fun _ => hnone) rfl rfl id fun store => ?_
      refine (buffered_setRedisQueue _ _ store).trans ?_
      simp [Shared.buffered]
    · refine h.quiet ⟨rfl, rfl, fun _ => rfl, id, ⟨rfl, rfl⟩, ?_, ⟨rfl, rfl⟩, fun _ => rfl⟩
      simp [exec, inFlight]
  | ltrim q' payload =>
    obtain rfl := Option.some.inj htarget
    obtain rfl := hallowed rfl
    -- there was room, so nothing is trimmed
    refine h.quiet ⟨rfl, rfl, fun store => ?_, id, ⟨rfl, rfl⟩, rfl, ⟨rfl, rfl⟩, fun _ => rfl⟩
    refine (buffered_setRedisQueue _ _ store).trans ?_
    split
    · rename_i hstore
      rw [hstore.2]
      exact latest_of_length_le (h.size none)
    · rfl
  | expireQueue q' payload =>
    obtain rfl := Option.some.inj htarget
    obtain rfl := hallowed rfl
    exact h.quiet ⟨rfl, rfl, fun _ => rfl, id, ⟨rfl, rfl⟩, rfl, ⟨rfl, rfl⟩, fun _ => rfl⟩
  | lockEnqueue q' payload =>
    obtain rfl := Option.some.inj htarget
    have hfits := hallowed rfl
    refine h.enqueue ⟨⟨rfl, rfl⟩, rfl⟩ (fun _ => rfl) ⟨by simp [inFlight], rfl⟩ hfits
      (fun hstore => by cases hstore) rfl rfl id fun store => ?_
    refine (buffered_setMemoryQueue _ _ store).trans ?_
    have hroom : ((s.memory worker).offlineQueue q' ++ [payload]).length ≤ maxOfflineQueue := by
      rw [List.length_append, List.length_singleton]
      exact hfits.room
    rw [latest_of_length_le hroom]
    simp [Shared.buffered]
  | lrange q' sid =>
    obtain rfl := Option.some.inj htarget
    refine h.lrange sid fail ?_ ?_ ?_ (hallowed rfl) ?_
    · intro store
      simp only [exec]
      split <;> cases store <;> rfl
    · simp only [exec]
      split <;> rfl
    · simp only [exec]
      split <;> rfl
    · have hredis : (if s.isOpen sid then { s with rejoined := (q', sid) :: s.rejoined }
          else s).redis = s.redis := by
        split <;> rfl
      simp only [exec, hredis]
      rfl
  | deleteQueue q' sid payloads =>
    obtain rfl := Option.some.inj htarget
    exact h.delete (hallowed rfl)
  | lockPop q' sid =>
    obtain rfl := Option.some.inj htarget
    exact h.pop (hallowed rfl)
  | emitFlushed q' sid payload =>
    obtain rfl := Option.some.inj htarget
    exact h.emitFlushed (hallowed rfl)
  | emitPayload q' payload =>
    obtain rfl := Option.some.inj htarget
    cases hpayload : ephemeral payload with
    | false =>
      obtain ⟨hrooms, hfree, hempty, hturn⟩ := hallowed rfl hpayload
      exact h.emit hpayload hrooms hfree hempty hturn
    | true =>
      refine h.quiet ⟨rfl, ?_, fun store => by cases store <;> rfl, id, ⟨rfl, rfl⟩, ?_,
        ⟨rfl, rfl⟩, fun _ => rfl⟩
      · simp [exec, Shared.emittedOn, hpayload]
      · simp [exec, inFlight, hpayload]
  | _ => cases htarget

/-- Every allowed command keeps the invariant. -/
theorem Inv.exec {fail : Bool} (h : Inv ephemeral q s (l₁ ++ ⟨worker, instr :: rest⟩ :: l₂))
    (hallowed : Allowed ephemeral q s (l₁ ++ ⟨worker, instr :: rest⟩ :: l₂) worker fail instr) :
    Inv ephemeral q (Relay.exec ephemeral worker fail instr s).1
      (l₁ ++ ⟨worker, (Relay.exec ephemeral worker fail instr s).2 ++ rest⟩ :: l₂) := by
  rcases inert_or_asks_or_target instr with hinert | hasks | ⟨q', htarget⟩
  · exact h.quiet (exec_quiet_inert fail hinert)
  · exact h.quiet (exec_quiet_asks fail hasks)
  · by_cases hq : q' = q
    · exact h.exec_target hallowed (hq ▸ htarget)
    · exact h.quiet (exec_quiet_other fail htarget hq)

/-! ## Events -/

omit [DecidableEq Worker] in
/-- A handler starts with nothing to emit, in flight or to delete. -/
theorem handler_calm (sid : String) (r : Request) :
    (handler sid r).filterMap (flushing q) = [] ∧
      (handler sid r).countP (inFlight ephemeral q) = 0 ∧
      (handler sid r).countP (deleting q) = 0 := by
  cases r with
  | createQueue queueId => exact ⟨rfl, rfl, rfl⟩
  | rejoinQueue data =>
    simp only [handler]
    split <;> exact ⟨rfl, rfl, rfl⟩
  | registerPeer myQueue peerQueue =>
    simp only [handler]
    split <;> exact ⟨rfl, rfl, rfl⟩
  | pushQueue queueId payload =>
    simp only [handler]
    repeat' split
    all_goals exact ⟨rfl, rfl, rfl⟩

/-- A new thread, and sockets that open or close. -/
theorem Inv.spawn {threads : List (Thread Worker Instr)} {t : Thread Worker Instr}
    (h : Inv ephemeral q s threads)
    (hcalm : t.todo.filterMap (flushing q) = [] ∧ t.todo.countP (inFlight ephemeral q) = 0 ∧
      t.todo.countP (deleting q) = 0)
    (hacc : s'.acceptedOn ephemeral q = s.acceptedOn ephemeral q)
    (hem : s'.emittedOn ephemeral q = s.emittedOn ephemeral q)
    (hbuf : ∀ store, s'.buffered q store = s.buffered q store)
    (hrej : s'.Rejoined q → s.Rejoined q) : Inv ephemeral q s' (threads ++ [t]) := by
  obtain ⟨hfl, hin, hdel⟩ := hcalm
  -- a calm thread holds no payload and has nothing to delete
  have hheld : heldAll (flushing q) (threads ++ [t]) = heldAll (flushing q) threads := by
    rw [heldAll_append, heldAll_cons, held, hfl]
    simp [heldAll]
  have hcount : ∀ p : Instr → Bool, t.todo.countP p = 0 →
      (pending (threads ++ [t])).countP p = (pending threads).countP p := by
    intro p hp
    rw [pending_append, List.countP_append, pending_cons, pending_nil, List.append_nil, hp,
      Nat.add_zero]
  obtain ⟨store, hline⟩ := h.line
  refine ⟨⟨store, fun other hs => (hbuf other).trans (hline.sole other hs), ?_, ?_⟩, ?_,
    fun other => hbuf other ▸ h.size other, ?_, ?_, ?_⟩
  · rw [hem, hheld, hbuf, hacc]
    exact hline.order
  · rw [hem, hheld, hbuf, hacc, hcount _ hin]
    exact hline.total
  · have honce := h.once
    unfold HeldOnce at honce ⊢
    rw [List.countP_append, List.countP_singleton, held, hfl]
    exact honce
  · intro sid payloads hmem
    rw [hbuf]
    rw [pending_append, List.mem_append] at hmem
    refine h.read sid payloads (hmem.resolve_right ?_)
    rw [pending_cons, pending_nil, List.append_nil]
    exact not_mem_of_countP_deleting hdel
  · rw [hbuf, hheld, hcount _ hdel]
    exact h.single
  · intro hrej' other hne
    rw [hbuf] at hne
    obtain ⟨t', ht', hreads⟩ := h.await (hrej hrej') other hne
    exact ⟨t', List.mem_append_left _ ht', hreads⟩

/-- Every orderly event keeps the invariant. -/
theorem Inv.apply {w w' : World Worker} {e : Event Worker}
    (h : Inv ephemeral q w.shared w.threads) (hok : Orderly ephemeral q w e)
    (happly : Relay.apply ephemeral w e = some w') : Inv ephemeral q w'.shared w'.threads := by
  cases e with
  | connect sid worker =>
    simp only [Relay.apply] at happly
    split at happly
    · cases happly
    · obtain rfl := Option.some.inj happly
      exact h.spawn ⟨rfl, rfl, rfl⟩ rfl rfl (fun store => by cases store <;> rfl) id
  | request sid r =>
    simp only [Relay.apply] at happly
    split at happly
    · cases happly
    · split at happly
      · obtain rfl := Option.some.inj happly
        exact h.spawn (handler_calm sid r) rfl rfl (fun _ => rfl) id
      · cases happly
  | disconnect sid =>
    simp only [Relay.apply] at happly
    split at happly
    · cases happly
    · obtain rfl := Option.some.inj happly
      refine h.spawn ⟨rfl, rfl, rfl⟩ rfl rfl (fun store => by cases store <;> rfl) ?_
      rintro ⟨r, hmem, hr⟩
      exact ⟨r, (List.mem_filter.mp hmem).1, hr⟩
  | run i fail =>
    obtain ⟨⟨s', threads'⟩, hstep, rfl⟩ := Option.map_eq_some_iff.mp happly
    obtain ⟨l₁, worker, instr, rest, l₂, hget, hthreads, rfl, rfl⟩ := stepThread_cases hstep
    simp only [Orderly, hget] at hok
    rw [hthreads] at h hok
    exact h.exec hok

/-- In every run of orderly events, when nothing is pending and the recipient
has rejoined, the payloads emitted are the ones accepted, in their order. -/
theorem emitted_of_orderly {w : World Worker}
    (hrun : Run (Relay.apply ephemeral) (Orderly ephemeral q) World.init w)
    (hquiescent : ∀ t ∈ w.threads, t.todo = []) (hrejoined : w.shared.Rejoined q) :
    w.shared.emittedOn ephemeral q = w.shared.acceptedOn ephemeral q := by
  have h : Inv ephemeral q w.shared w.threads :=
    hrun.invariant (I := fun w => Inv ephemeral q w.shared w.threads) (Inv.init ephemeral q)
      fun _ _ _ => Inv.apply
  have hpending := pending_eq_nil hquiescent
  obtain ⟨store, hline⟩ := h.line
  have hheld : heldAll (flushing q) w.threads = [] := by rw [heldAll, hpending, List.filterMap_nil]
  -- nothing is left in a buffer, since no flush is there to read it
  have hbuf : w.shared.buffered q store = [] := by
    by_contra hne
    obtain ⟨t, ht, x, hx, -⟩ := h.await hrejoined store hne
    rw [hquiescent t ht] at hx
    cases hx
  have horder := hline.order
  have htotal := hline.total
  rw [hheld, hbuf, List.append_nil, List.append_nil] at horder
  rw [hheld, hbuf, hpending] at htotal
  exact horder.eq_of_length htotal.symm

/-! ## Sample runs -/

section

variable (ephemeral q) (s : Shared Worker) (threads : List (Thread Worker Instr))

instance (store : Option Worker) (payload : String) :
    Decidable (Turn ephemeral q s threads store payload) :=
  inferInstanceAs (Decidable (_ = some payload))

variable [Fintype Worker]

instance (store : Option Worker) (payload : String) :
    Decidable (Fits ephemeral q s threads store payload) :=
  decidable_of_iff
    (Turn ephemeral q s threads store payload ∧
      (∀ other, other ≠ store → s.buffered q other = []) ∧
      (s.buffered q store).length < maxOfflineQueue ∧ (s.Rejoined q → Awaited q store threads))
    ⟨fun ⟨h₁, h₂, h₃, h₄⟩ => ⟨h₁, h₂, h₃, h₄⟩, fun ⟨h₁, h₂, h₃, h₄⟩ => ⟨h₁, h₂, h₃, h₄⟩⟩

instance (worker : Worker) (fail : Bool) (instr : Instr) :
    Decidable (Allowed ephemeral q s threads worker fail instr) := by
  cases instr <;> unfold Allowed <;> infer_instance

instance (w : World Worker) (e : Event Worker) : Decidable (Orderly ephemeral q w e) := by
  unfold Orderly
  repeat' split
  all_goals infer_instance

end

/-- Let a thread run so many commands, none of which fails. -/
def runs (i n : ℕ) : List (Event Bool) := List.replicate n (.run i false)

/-- `host` creates the queue `q`, `guest` the queue `p`, and registers for `q`; `host` leaves. -/
def sampleAway : List (Event Bool) :=
  [.connect "host" true] ++ runs 0 2 ++ [.request "host" (.createQueue "q")] ++ runs 1 8 ++
    [.connect "guest" false] ++ runs 2 2 ++ [.request "guest" (.createQueue "p")] ++ runs 3 8 ++
    [.request "guest" (.registerPeer "p" "q")] ++ runs 4 3 ++ [.disconnect "host"] ++ runs 5 3

/-- `guest` pushes a payload, which is buffered; `host` is back and rejoins; `guest` pushes another. -/
def sampleReturn : List (Event Bool) :=
  sampleAway ++ [.request "guest" (.pushQueue "q" "hello")] ++ runs 6 7 ++
    [.connect "host again" true] ++ runs 7 2 ++
    [.request "host again" (.rejoinQueue "q")] ++ runs 8 8 ++
    [.request "guest" (.pushQueue "q" "are you there?")] ++ runs 9 4

/-- The payload is buffered after the flush has read and before it deletes. -/
def sampleRace : List (Event Bool) :=
  sampleAway ++ [.request "guest" (.pushQueue "q" "hello")] ++ runs 6 3 ++
    [.connect "host again" true] ++ runs 7 2 ++
    [.request "host again" (.rejoinQueue "q")] ++ runs 8 6 ++ runs 6 4 ++ runs 8 2

theorem emitted_of_orderly_return :
    ∃ w : World Bool, w.shared.acceptedOn (fun _ => false) "q" = ["hello", "are you there?"] ∧
      w.shared.emittedOn (fun _ => false) "q" = w.shared.acceptedOn (fun _ => false) "q" := by
  have hend : (runAll (apply fun _ => false) (Orderly (fun _ => false) "q") sampleReturn
      World.init).any (fun w => (∀ t ∈ w.threads, t.todo = []) ∧ w.shared.Rejoined "q" ∧
        w.shared.acceptedOn (fun _ => false) "q" = ["hello", "are you there?"]) = true := by
    decide +kernel
  obtain ⟨w, hrun, hw⟩ := Run.exists_of_runAll hend
  obtain ⟨hquiescent, hrejoined, haccepted⟩ := of_decide_eq_true hw
  exact ⟨w, haccepted, emitted_of_orderly hrun hquiescent hrejoined⟩

/-- `MAX_OFFLINE_QUEUE` is never reached on the queue. -/
def Roomy (w : World Bool) (_ : Event Bool) : Prop :=
  ∀ store, (w.shared.buffered "q" store).length < maxOfflineQueue

instance (w : World Bool) (e : Event Bool) : Decidable (Roomy w e) :=
  inferInstanceAs (Decidable (∀ store, (w.shared.buffered "q" store).length < maxOfflineQueue))

/-- A payload is accepted and buffered, the flush of the recipient deletes it
unread, and nobody is left to emit it. -/
theorem emitted_lost :
    ¬ ∀ w : World Bool, Run (apply fun _ => false) Roomy World.init w →
      (∀ t ∈ w.threads, t.todo = []) → w.shared.Rejoined "q" →
        w.shared.emittedOn (fun _ => false) "q" = w.shared.acceptedOn (fun _ => false) "q" := by
  intro hall
  have hend : (runAll (apply fun _ => false) Roomy sampleRace World.init).any (fun w =>
      (∀ t ∈ w.threads, t.todo = []) ∧ w.shared.Rejoined "q" ∧
        w.shared.emittedOn (fun _ => false) "q" = [] ∧
        w.shared.acceptedOn (fun _ => false) "q" = ["hello"]) = true := by
    decide +kernel
  obtain ⟨w, hrun, hw⟩ := Run.exists_of_runAll hend
  obtain ⟨hquiescent, hrejoined, hemitted, haccepted⟩ := of_decide_eq_true hw
  have hequal := hall w hrun hquiescent hrejoined
  rw [hemitted, haccepted] at hequal
  cases hequal

end AnonyMus.Relay
