import AnonyMus.Relay.Quiescence

/-!
# Relay server — who receives the payloads of a queue

Sockets belong to parties. A queue is to be read by the party whose socket was
sent its `queue_created`, but `rejoin_queue` lets in whoever names the queue.

* `exec_rooms`, `exec_emitted`, … — who a command lets into a room, and what it emits;
* `Guarded` — only the party of a queue rejoins it;
* `Private` — the queue is in the hands of one party;
* `emitted_to_creator` — in guarded runs the payloads of a queue reach the
  sockets of its party only;
* `emitted_to_guest` — a contact that rejoins the queue of another.
-/

namespace AnonyMus.Relay

open Interleave

variable {Worker : Type} {ephemeral : String → Bool} {q : String} {s : Shared Worker}
  {worker : Worker} {fail : Bool} {instr : Instr}

/-! ## Commands -/

/-- The queue ids, or room names, that a command carries. -/
def Instr.queueIds : Instr → List String
  | .saddOwner q _ => [q]
  | .expireOwner q _ => [q]
  | .lockAddOwner q _ => [q]
  | .setCreator q _ => [q]
  | .lockSetCreator q _ => [q]
  | .sismemberOwner q _ (.register peerQueue) => [q, peerQueue]
  | .sismemberOwner q _ (.push _) => [q]
  | .lockIsOwner q _ (.register peerQueue) => [q, peerQueue]
  | .lockIsOwner q _ (.push _) => [q]
  | .getCreator q _ => [q]
  | .sismemberOnline q _ _ => [q]
  | .lockGetCreator q _ => [q]
  | .lockConnected q _ _ => [q]
  | .rpush q _ => [q]
  | .ltrim q _ => [q]
  | .expireQueue q _ => [q]
  | .lockEnqueue q _ => [q]
  | .lrange q _ => [q]
  | .deleteQueue q _ _ => [q]
  | .lockPop q _ => [q]
  | .emitFlushed q _ _ => [q]
  | .joinRoom q _ => [q]
  | .emitCreated q _ => [q]
  | .emitRejoined q _ => [q]
  | .emitQueuedError q => [q]
  | .emitPayload q _ => [q]
  | _ => []

/-- The socket that the flush of the queue is for. -/
def flushedTo (q : String) : Instr → Option String
  | .lrange q' sid => if q' = q then some sid else none
  | .deleteQueue q' sid _ => if q' = q then some sid else none
  | .lockPop q' sid => if q' = q then some sid else none
  | .emitFlushed q' sid _ => if q' = q then some sid else none
  | _ => none

variable [DecidableEq Worker]

/-- The commands that somebody notices. -/
def Visible : Instr → Bool
  | .lrange _ _ => true
  | .emitFlushed _ _ _ => true
  | .joinRoom _ _ => true
  | .emitCreated _ _ => true
  | .emitPayload _ _ => true
  | _ => false

theorem exec_of_not_visible (h : Visible instr = false) :
    (exec ephemeral worker fail instr s).1.rooms = s.rooms ∧
      (exec ephemeral worker fail instr s).1.emitted = s.emitted ∧
      (exec ephemeral worker fail instr s).1.created = s.created ∧
      (exec ephemeral worker fail instr s).1.rejoined = s.rejoined := by
  cases instr with
  | sismemberOwner q' sid next =>
    cases fail
    · cases next <;> simp only [exec, Bool.false_eq_true, if_false] <;> split <;>
        exact ⟨rfl, rfl, rfl, rfl⟩
    · exact ⟨rfl, rfl, rfl, rfl⟩
  | lockIsOwner q' sid next =>
    cases next <;> simp only [exec] <;> split <;> exact ⟨rfl, rfl, rfl, rfl⟩
  | getCreator q' payload =>
    cases fail
    · simp only [exec, Bool.false_eq_true, if_false]
      split <;> exact ⟨rfl, rfl, rfl, rfl⟩
    · exact ⟨rfl, rfl, rfl, rfl⟩
  | lockGetCreator q' payload =>
    simp only [exec]
    split <;> exact ⟨rfl, rfl, rfl, rfl⟩
  | _ => first | exact ⟨rfl, rfl, rfl, rfl⟩ | (cases fail <;> exact ⟨rfl, rfl, rfl, rfl⟩) | cases h

/-- Only `join_room` lets a socket into a room. -/
theorem exec_rooms {room sid : String}
    (h : sid ∈ (exec ephemeral worker fail instr s).1.rooms room) :
    sid ∈ s.rooms room ∨ instr = .joinRoom room sid := by
  by_cases hvisible : Visible instr = true
  · cases instr with
    | joinRoom room' sid' =>
      simp only [exec] at h
      split at h
      · by_cases hroom : room = room'
        · subst hroom
          simp only [Function.update_self, List.mem_insert_iff] at h
          rcases h with rfl | h
          · exact Or.inr rfl
          · exact Or.inl h
        · simp only [Function.update_of_ne hroom] at h
          exact Or.inl h
      · exact Or.inl h
    | lrange q' sid' =>
      simp only [exec] at h
      split at h <;> exact Or.inl h
    | emitFlushed q' sid' payload => exact Or.inl h
    | emitCreated q' sid' => exact Or.inl h
    | emitPayload q' payload => exact Or.inl h
    | _ => cases hvisible
  · rw [(exec_of_not_visible (by simpa using hvisible)).1] at h
    exact Or.inl h

/-- Payloads are emitted to the room of the queue, or to that of a socket that flushes it. -/
theorem exec_emitted {e : Emission}
    (h : e ∈ (exec ephemeral worker fail instr s).1.emitted) :
    e ∈ s.emitted ∨ (e.reached = s.rooms e.queueId ∧ e.queueId ∈ instr.queueIds) ∨
      ∃ sid, e.reached = s.rooms sid ∧ flushedTo e.queueId instr = some sid := by
  by_cases hvisible : Visible instr = true
  · cases instr with
    | emitFlushed q' sid payload =>
      simp only [exec, List.mem_append, List.mem_singleton] at h
      rcases h with h | rfl
      · exact Or.inl h
      · exact Or.inr (Or.inr ⟨sid, rfl, if_pos rfl⟩)
    | emitPayload q' payload =>
      simp only [exec, List.mem_append, List.mem_singleton] at h
      rcases h with h | rfl
      · exact Or.inl h
      · exact Or.inr (Or.inl ⟨rfl, List.mem_singleton_self _⟩)
    | joinRoom room sid =>
      simp only [exec] at h
      split at h <;> exact Or.inl h
    | lrange q' sid =>
      simp only [exec] at h
      split at h <;> exact Or.inl h
    | emitCreated q' sid => exact Or.inl h
    | _ => cases hvisible
  · rw [(exec_of_not_visible (by simpa using hvisible)).2.1] at h
    exact Or.inl h

theorem exec_created {queueId sid : String}
    (h : (queueId, sid) ∈ (exec ephemeral worker fail instr s).1.created) :
    (queueId, sid) ∈ s.created ∨ instr = .emitCreated queueId sid := by
  by_cases hvisible : Visible instr = true
  · cases instr with
    | emitCreated q' sid' =>
      rcases List.mem_cons.mp h with h | h
      · obtain ⟨rfl, rfl⟩ := Prod.mk.inj h
        exact Or.inr rfl
      · exact Or.inl h
    | joinRoom room sid' =>
      simp only [exec] at h
      split at h <;> exact Or.inl h
    | lrange q' sid' =>
      simp only [exec] at h
      split at h <;> exact Or.inl h
    | emitFlushed q' sid' payload => exact Or.inl h
    | emitPayload q' payload => exact Or.inl h
    | _ => cases hvisible
  · rw [(exec_of_not_visible (by simpa using hvisible)).2.2.1] at h
    exact Or.inl h

theorem exec_rejoined {queueId sid : String}
    (h : (queueId, sid) ∈ (exec ephemeral worker fail instr s).1.rejoined) :
    (queueId, sid) ∈ s.rejoined ∨ flushedTo queueId instr = some sid := by
  by_cases hvisible : Visible instr = true
  · cases instr with
    | lrange q' sid' =>
      simp only [exec] at h
      split at h
      · rcases List.mem_cons.mp h with h | h
        · obtain ⟨rfl, rfl⟩ := Prod.mk.inj h
          exact Or.inr (if_pos rfl)
        · exact Or.inl h
      · exact Or.inl h
    | joinRoom room sid' =>
      simp only [exec] at h
      split at h <;> exact Or.inl h
    | emitFlushed q' sid' payload => exact Or.inl h
    | emitCreated q' sid' => exact Or.inl h
    | emitPayload q' payload => exact Or.inl h
    | _ => cases hvisible
  · rw [(exec_of_not_visible (by simpa using hvisible)).2.2.2] at h
    exact Or.inl h

/-- The command joins a room or tells a socket that it created a queue. -/
def admits : Instr → Bool
  | .joinRoom _ _ => true
  | .emitCreated _ _ => true
  | _ => false

/-- What a command leads to is about the same queues, flushes for the same
socket, and admits nobody. -/
structure Leads (q : String) (instr instr' : Instr) : Prop where
  queueIds : instr'.queueIds ⊆ instr.queueIds
  flushed  : ∀ sid, flushedTo q instr' = some sid → flushedTo q instr = some sid
  closed   : admits instr' = false

omit [DecidableEq Worker] in
theorem leads_proceed {q' sid : String} {next : Next} {instr' : Instr}
    (h : instr' ∈ (proceed q' sid s next).2)
    (hinstr : instr = .sismemberOwner q' sid next ∨ instr = .lockIsOwner q' sid next) :
    Leads q instr instr' := by
  cases next <;> obtain rfl := List.mem_singleton.mp h <;> rcases hinstr with rfl | rfl <;>
    exact ⟨by simp [Instr.queueIds], fun _ h => h, rfl⟩

theorem leads_route {q' payload : String} {online : Bool} {instr' : Instr}
    (h : instr' ∈ route ephemeral q' payload online) (hid : q' ∈ instr.queueIds) :
    Leads q instr instr' := by
  have hcases : instr' = .emitPayload q' payload ∨ instr' = .rpush q' payload := by
    cases online
    · refine Or.inr ?_
      by_cases heph : ephemeral payload = true <;> simp [route, heph] at h
      exact h
    · exact Or.inl (by simpa [route] using h)
  rcases hcases with rfl | rfl <;>
    exact ⟨by simpa [Instr.queueIds] using hid, fun _ h => (by cases h), rfl⟩

theorem leads_emitFlushed {q' sid : String} {payloads : List String} {instr' : Instr}
    (h : instr' ∈ payloads.map (.emitFlushed q' sid)) (hid : q' ∈ instr.queueIds)
    (hflushed : flushedTo q instr = if q' = q then some sid else none) : Leads q instr instr' := by
  obtain ⟨payload, -, rfl⟩ := List.mem_map.mp h
  exact ⟨by simpa [Instr.queueIds] using hid, fun _ h => hflushed.trans h, rfl⟩

theorem exec_leads {instr' : Instr} (h : instr' ∈ (exec ephemeral worker fail instr s).2) :
    Leads q instr instr' := by
  cases instr with
  | sismemberOwner q' sid next =>
    cases fail
    · simp only [exec, Bool.false_eq_true, if_false] at h
      split at h
      · exact leads_proceed h (Or.inl rfl)
      · cases h
    · obtain rfl := List.mem_singleton.mp h
      cases next <;> exact ⟨List.Subset.refl _, fun _ h => h, rfl⟩
  | lockIsOwner q' sid next =>
    simp only [exec] at h
    split at h
    · exact leads_proceed h (Or.inr rfl)
    · cases h
  | getCreator q' payload =>
    cases fail
    · simp only [exec, Bool.false_eq_true, if_false] at h
      split at h <;> obtain rfl := List.mem_singleton.mp h <;>
        exact ⟨List.Subset.refl _, fun _ h => h, rfl⟩
    · obtain rfl := List.mem_singleton.mp h
      exact ⟨List.Subset.refl _, fun _ h => h, rfl⟩
  | sismemberOnline q' payload creatorSid =>
    cases fail
    · exact leads_route h (List.mem_singleton_self q')
    · obtain rfl := List.mem_singleton.mp h
      exact ⟨List.Subset.refl _, fun _ h => h, rfl⟩
  | lockGetCreator q' payload =>
    simp only [exec] at h
    split at h
    · obtain rfl := List.mem_singleton.mp h
      exact ⟨List.Subset.refl _, fun _ h => h, rfl⟩
    · have hroute : instr' ∈ route ephemeral q' payload false := h
      exact leads_route hroute (List.mem_singleton_self q')
  | lockConnected q' payload creatorSid => exact leads_route h (List.mem_singleton_self q')
  | deleteQueue q' sid payloads =>
    simp only [exec, flushed] at h
    split at h
    · obtain rfl := List.mem_singleton.mp h
      exact ⟨List.Subset.refl _, fun _ h => h, rfl⟩
    · exact leads_emitFlushed h (List.mem_singleton_self q') rfl
  | lockPop q' sid => exact leads_emitFlushed h (List.mem_singleton_self q') rfl
  | _ =>
    -- at most one command, on the same queue
    cases fail <;> simp only [exec, Bool.false_eq_true, if_false, if_true, List.mem_singleton,
      List.not_mem_nil] at h
    all_goals subst h; exact ⟨List.Subset.refl _, fun _ h => h, rfl⟩

omit [DecidableEq Worker] in
theorem mem_queueIds_of_flushedTo {sid : String} (h : flushedTo q instr = some sid) :
    q ∈ instr.queueIds := by
  cases instr <;> simp only [flushedTo] at h <;> first | cases h | skip
  all_goals
    obtain ⟨rfl, -⟩ := Option.ite_none_right_eq_some.mp h
    exact List.mem_singleton_self _

/-! ## Requests -/

/-- The request joins the room and flushes the queue. -/
def Request.Opens (r : Request) (room : String) : Prop :=
  r = .createQueue room ∨ ∃ data, r = .rejoinQueue data ∧ strip data = room

omit [DecidableEq Worker] in
theorem handler_queueIds {sid x : String} {r : Request} (h : instr ∈ handler sid r)
    (hx : x ∈ instr.queueIds) : x ∈ r.names := by
  cases r with
  | createQueue queueId =>
    simp only [handler, List.mem_cons, List.not_mem_nil, or_false] at h
    rcases h with rfl | rfl | rfl | rfl | rfl <;> exact hx
  | rejoinQueue data =>
    simp only [handler] at h
    split at h
    · cases h
    · simp only [List.mem_cons, List.not_mem_nil, or_false] at h
      rcases h with rfl | rfl | rfl | rfl | rfl <;> exact hx
  | registerPeer myQueue peerQueue =>
    simp only [handler] at h
    split at h
    · cases h
    · obtain rfl := List.mem_singleton.mp h
      exact hx
  | pushQueue queueId payload =>
    simp only [handler] at h
    split at h
    · cases h
    · split at h
      · cases h
      · obtain rfl := List.mem_singleton.mp h
        exact hx

omit [DecidableEq Worker] in
/-- A handler joins and flushes for its own socket, and creates what was drawn. -/
theorem handler_opens {sid room sid' : String} {r : Request} (h : instr ∈ handler sid r) :
    (instr = .joinRoom room sid' → sid' = sid ∧ r.Opens room) ∧
      (flushedTo room instr = some sid' → sid' = sid ∧ r.Opens room) ∧
      (instr = .emitCreated room sid' → sid' = sid ∧ r = .createQueue room) := by
  cases r with
  | createQueue queueId =>
    simp only [handler, List.mem_cons, List.not_mem_nil, or_false] at h
    rcases h with rfl | rfl | rfl | rfl | rfl <;> simp [flushedTo, Request.Opens] <;>
      rintro rfl rfl <;> exact ⟨rfl, rfl⟩
  | rejoinQueue data =>
    simp only [handler] at h
    split at h
    · cases h
    · simp only [List.mem_cons, List.not_mem_nil, or_false] at h
      rcases h with rfl | rfl | rfl | rfl | rfl <;> simp [flushedTo, Request.Opens] <;>
        rintro rfl rfl <;> exact ⟨rfl, rfl⟩
  | registerPeer myQueue peerQueue =>
    simp only [handler] at h
    split at h
    · cases h
    · obtain rfl := List.mem_singleton.mp h
      simp [flushedTo]
  | pushQueue queueId payload =>
    simp only [handler] at h
    split at h
    · cases h
    · split at h
      · cases h
      · obtain rfl := List.mem_singleton.mp h
        simp [flushedTo]

/-! ## Parties -/

section

variable {Party : Type} (party : String → Party) (q : String) (p : Party)

omit [DecidableEq Worker] in
/-- Who rejoins the queue, or names one of the sockets of its party, is of that party. -/
def Guarded (w : World Worker) : Event Worker → Prop
  | .request sid (.rejoinQueue data) =>
    strip data = q ∨ (strip data ∈ w.sids ∧ party (strip data) = p) → party sid = p
  | _ => True

variable (w : World Worker)

/-- The socket has been, or is about to be, told that it created the queue. -/
def World.Creator (sid : String) : Prop :=
  (q, sid) ∈ w.shared.created ∨ .emitCreated q sid ∈ pending w.threads

/-- The name is the name of no room, queue or socket. -/
structure World.Unused (x : String) : Prop where
  room     : w.shared.rooms x = []
  pending  : ∀ instr ∈ pending w.threads, x ∉ instr.queueIds
  emitted  : ∀ e ∈ w.shared.emitted, e.queueId ≠ x
  created  : ∀ sid, (x, sid) ∉ w.shared.created
  rejoined : ∀ sid, (x, sid) ∉ w.shared.rejoined

/-- The queue is in the hands of the party: nobody else is in its room or flushes it. -/
structure Private : Prop where
  room     : ∀ sid ∈ w.shared.rooms q, party sid = p
  joins    : ∀ sid, .joinRoom q sid ∈ pending w.threads → party sid = p
  flushes  : ∀ instr ∈ pending w.threads, ∀ sid, flushedTo q instr = some sid →
    sid ∈ w.sids ∧ party sid = p
  emitted  : ∀ e ∈ w.shared.emitted, e.queueId = q → ∀ sid ∈ e.reached, party sid = p
  rejoined : ∀ sid, (q, sid) ∈ w.shared.rejoined → party sid = p

/-- What holds in guarded runs. -/
structure Sealed : Prop where
  sockets : ∀ r ∈ w.sockets, r.1 ∈ w.sids
  unused  : ∀ x, x ∉ w.names → w.Unused x
  own     : ∀ s ∈ w.sids, party s = p → ∀ sid ∈ w.shared.rooms s, party sid = p
  joins   : ∀ s ∈ w.sids, party s = p → ∀ sid, .joinRoom s sid ∈ pending w.threads → party sid = p
  hidden  : ∀ c, w.Creator q c → party c = p → Private party q p w

end

section

variable {Party : Type} {party : String → Party} {p : Party} {w w' : World Worker}

omit [DecidableEq Worker] in
theorem Sealed.init : Sealed party q p (World.init : World Worker) where
  sockets _ h := by cases h
  unused _ _ := ⟨rfl, fun _ h => (by cases h), fun _ h => (by cases h), fun _ h => (by cases h),
    fun _ h => (by cases h)⟩
  own _ h := by cases h
  joins _ h := by cases h
  hidden c h := by
    rcases h with h | h <;> cases h

omit [DecidableEq Worker] in
/-- A queue that has a creator is a name in use. -/
theorem World.Creator.mem_names {c : String} (h : w.Creator q c)
    (hunused : ∀ x, x ∉ w.names → w.Unused x) : q ∈ w.names := by
  by_contra hq
  rcases h with h | h
  · exact (hunused q hq).created c h
  · exact (hunused q hq).pending _ h (List.mem_singleton_self q)

/-- What a command of a thread does to the world. -/
theorem apply_run_cases {i : ℕ} (h : apply ephemeral w (.run i fail) = some w') :
    ∃ worker, ∃ instr ∈ pending w.threads,
      w'.shared = (exec ephemeral worker fail instr w.shared).1 ∧
      (∀ x ∈ pending w'.threads,
        x ∈ (exec ephemeral worker fail instr w.shared).2 ∨ x ∈ pending w.threads) ∧
      w'.sockets = w.sockets ∧ w'.sids = w.sids ∧ w'.queueIds = w.queueIds := by
  obtain ⟨⟨s', threads'⟩, hstep, rfl⟩ := Option.map_eq_some_iff.mp h
  obtain ⟨l₁, worker, instr, rest, l₂, -, hthreads, rfl, rfl⟩ := stepThread_cases hstep
  refine ⟨worker, instr, ?_, rfl, fun x hx => ?_, rfl, rfl, rfl⟩
  · rw [hthreads]
    exact mem_pending_at.mpr (Or.inl List.mem_cons_self)
  · rw [hthreads]
    exact mem_pending_step instr hx

/-- A command keeps a queue private. -/
theorem Private.run {i : ℕ} (h : Private party q p w)
    (hown : ∀ s ∈ w.sids, party s = p → ∀ sid ∈ w.shared.rooms s, party sid = p)
    (hrun : apply ephemeral w (.run i fail) = some w') : Private party q p w' := by
  obtain ⟨worker, instr, hinstr, hshared, hpending, -, hsids, -⟩ := apply_run_cases hrun
  refine ⟨fun sid hsid => ?_, fun sid hjoin => ?_, fun x hx sid hflush => ?_,
    fun e he hq sid hsid => ?_, fun sid hsid => ?_⟩
  · rw [hshared] at hsid
    rcases exec_rooms hsid with hold | rfl
    · exact h.room sid hold
    · exact h.joins sid hinstr
  · rcases hpending _ hjoin with hnew | hold
    · cases (exec_leads (q := q) hnew).closed
    · exact h.joins sid hold
  · rw [hsids]
    rcases hpending _ hx with hnew | hold
    · exact h.flushes instr hinstr sid ((exec_leads hnew).flushed sid hflush)
    · exact h.flushes x hold sid hflush
  · rw [hshared] at he
    rcases exec_emitted he with hold | ⟨hroom, -⟩ | ⟨s, hroom, hflush⟩
    · exact h.emitted e hold hq sid hsid
    · rw [hroom, hq] at hsid
      exact h.room sid hsid
    · -- a flush emits to the room of a socket of the party
      rw [hroom] at hsid
      rw [hq] at hflush
      obtain ⟨hs, hparty⟩ := h.flushes instr hinstr s hflush
      exact hown s hs hparty sid hsid
  · rw [hshared] at hsid
    rcases exec_rejoined hsid with hold | hflush
    · exact h.rejoined sid hold
    · exact (h.flushes instr hinstr sid hflush).2

theorem Sealed.run {i : ℕ} (h : Sealed party q p w)
    (hrun : apply ephemeral w (.run i fail) = some w') : Sealed party q p w' := by
  obtain ⟨worker, instr, hinstr, hshared, hpending, hsockets, hsids, hqueueIds⟩ :=
    apply_run_cases hrun
  have hjoins : ∀ room sid, .joinRoom room sid ∈ pending w'.threads →
      .joinRoom room sid ∈ pending w.threads := fun room sid hmem =>
    (hpending _ hmem).resolve_left fun hnew => by cases (exec_leads (q := q) hnew).closed
  refine ⟨?_, fun x hx => ?_, fun s hs hparty sid hsid => ?_, fun s hs hparty sid hjoin => ?_,
    fun c hc hparty => ?_⟩
  · rw [hsockets, hsids]
    exact h.sockets
  · rw [World.names, hsids, hqueueIds] at hx
    have hunused := h.unused x hx
    -- the command is not about the name
    have hx' : x ∉ instr.queueIds := hunused.pending instr hinstr
    refine ⟨?_, fun y hy => ?_, fun e he => ?_, fun sid hsid => ?_, fun sid hsid => ?_⟩
    · refine List.eq_nil_iff_forall_not_mem.mpr fun sid hsid => ?_
      rw [hshared] at hsid
      rcases exec_rooms hsid with hold | rfl
      · rw [hunused.room] at hold
        cases hold
      · exact hx' (List.mem_singleton_self x)
    · rcases hpending y hy with hnew | hold
      · exact fun hmem => hx' ((exec_leads (q := q) hnew).queueIds hmem)
      · exact hunused.pending y hold
    · rintro rfl
      rw [hshared] at he
      rcases exec_emitted he with hold | ⟨-, hid⟩ | ⟨s, -, hflush⟩
      · exact hunused.emitted e hold rfl
      · exact hx' hid
      · exact hx' (mem_queueIds_of_flushedTo hflush)
    · rw [hshared] at hsid
      rcases exec_created hsid with hold | rfl
      · exact hunused.created sid hold
      · exact hx' (List.mem_singleton_self x)
    · rw [hshared] at hsid
      rcases exec_rejoined hsid with hold | hflush
      · exact hunused.rejoined sid hold
      · exact hx' (mem_queueIds_of_flushedTo hflush)
  · rw [hsids] at hs
    rw [hshared] at hsid
    rcases exec_rooms hsid with hold | rfl
    · exact h.own s hs hparty sid hold
    · exact h.joins s hs hparty sid hinstr
  · rw [hsids] at hs
    exact h.joins s hs hparty sid (hjoins s sid hjoin)
  · -- a creator that has just been told was about to be told
    have hold : w.Creator q c := by
      rcases hc with hc | hc
      · rw [hshared] at hc
        rcases exec_created hc with hold | rfl
        · exact Or.inl hold
        · exact Or.inr hinstr
      · refine Or.inr ((hpending _ hc).resolve_left fun hnew => ?_)
        cases (exec_leads (q := q) hnew).closed
    exact (h.hidden c hold hparty).run h.own hrun

theorem Sealed.connect {sid : String} {worker : Worker} (h : Sealed party q p w)
    (hrun : apply ephemeral w (.connect sid worker) = some w') : Sealed party q p w' := by
  simp only [apply] at hrun
  split at hrun
  · cases hrun
  rename_i hnew
  obtain rfl := Option.some.inj hrun
  have hsid : w.Unused sid := h.unused sid hnew
  have hpending : ∀ x ∈ pending (w.threads ++ [⟨worker, [.lockConnect sid, .saddOnline sid]⟩]),
      x = .lockConnect sid ∨ x = .saddOnline sid ∨ x ∈ pending w.threads := by
    intro x hx
    simp only [pending_append, pending_cons, pending_nil, List.mem_append, List.mem_cons,
      List.not_mem_nil, or_false] at hx
    tauto
  have hrooms : ∀ room ≠ sid, Function.update w.shared.rooms sid (sid :: w.shared.rooms sid) room =
      w.shared.rooms room := fun room hroom => Function.update_of_ne hroom _ _
  have hold : ∀ s ∈ w.sids, s ≠ sid := by
    rintro s hs rfl
    exact hnew (List.mem_append_left _ hs)
  -- the new socket has its own room only, and no command joins a room
  refine ⟨?_, fun x hx => ?_, fun s hs hparty x hx => ?_, fun s hs hparty x hjoin => ?_,
    fun c hc hparty => ?_⟩
  · intro r hr
    rcases List.mem_cons.mp hr with rfl | hr
    · exact List.mem_cons_self
    · exact List.mem_cons_of_mem _ (h.sockets r hr)
  · have hne : x ≠ sid := by
      rintro rfl
      exact hx (List.mem_append_left _ List.mem_cons_self)
    have hunused := h.unused x fun hmem => hx (List.mem_cons_of_mem _ hmem)
    refine ⟨(hrooms x hne).trans hunused.room, fun y hy => ?_, hunused.emitted, hunused.created,
      hunused.rejoined⟩
    rcases hpending y hy with rfl | rfl | hy
    · exact List.not_mem_nil
    · exact List.not_mem_nil
    · exact hunused.pending y hy
  · rcases List.mem_cons.mp hs with rfl | hs
    · simp only [Function.update_self, hsid.room, List.mem_singleton] at hx
      rw [hx]
      exact hparty
    · refine h.own s hs hparty x ?_
      rw [← hrooms s (hold s hs)]
      exact hx
  · have hjoin' : .joinRoom s x ∈ pending w.threads := by
      rcases hpending _ hjoin with hx | hx | hx
      · cases hx
      · cases hx
      · exact hx
    rcases List.mem_cons.mp hs with rfl | hs
    · exact absurd (List.mem_singleton_self s) (hsid.pending _ hjoin')
    · exact h.joins s hs hparty x hjoin'
  · -- a name that is in use cannot be the one of the new socket
    have hcreator : w.Creator q c := by
      rcases hc with hc | hc
      · exact Or.inl hc
      · rcases hpending _ hc with hx | hx | hx
        · cases hx
        · cases hx
        · exact Or.inr hx
    have hq : q ≠ sid := by
      rintro rfl
      exact hnew (hcreator.mem_names h.unused)
    have hprivate := h.hidden c hcreator hparty
    refine ⟨fun x hx => ?_, fun x hjoin => ?_, fun y hy x hflush => ?_, hprivate.emitted,
      hprivate.rejoined⟩
    · refine hprivate.room x ?_
      rw [← hrooms q hq]
      exact hx
    · rcases hpending _ hjoin with hx | hx | hx
      · cases hx
      · cases hx
      · exact hprivate.joins x hx
    · rcases hpending y hy with rfl | rfl | hy
      · cases hflush
      · cases hflush
      · obtain ⟨hx, hparty⟩ := hprivate.flushes y hy x hflush
        exact ⟨List.mem_cons_of_mem _ hx, hparty⟩

theorem Sealed.disconnect {sid : String} (h : Sealed party q p w)
    (hrun : apply ephemeral w (.disconnect sid) = some w') : Sealed party q p w' := by
  simp only [apply] at hrun
  split at hrun
  · cases hrun
  rename_i worker hlookup
  obtain rfl := Option.some.inj hrun
  have hpending : ∀ x ∈ pending (w.threads ++
      [⟨worker, [.lockDisconnect sid, .sremOnline sid, .lockCleanUp sid]⟩]),
      x = .lockDisconnect sid ∨ x = .sremOnline sid ∨ x = .lockCleanUp sid ∨
        x ∈ pending w.threads := by
    intro x hx
    simp only [pending_append, pending_cons, pending_nil, List.mem_append, List.mem_cons,
      List.not_mem_nil, or_false] at hx
    tauto
  have hjoins : ∀ room x, .joinRoom room x ∈ pending (w.threads ++
      [⟨worker, [.lockDisconnect sid, .sremOnline sid, .lockCleanUp sid]⟩]) →
      .joinRoom room x ∈ pending w.threads := by
    intro room x hx
    simpa using hpending _ hx
  -- rooms only lose the socket
  refine ⟨fun r hr => h.sockets r (List.mem_filter.mp hr).1, fun x hx => ?_,
    fun s hs hparty x hx => h.own s hs hparty x (List.mem_filter.mp hx).1,
    fun s hs hparty x hjoin => h.joins s hs hparty x (hjoins s x hjoin), fun c hc hparty => ?_⟩
  · have hunused := h.unused x hx
    refine ⟨?_, fun y hy => ?_, hunused.emitted, hunused.created, fun y hy => ?_⟩
    · show (w.shared.rooms x).filter (· ≠ sid) = []
      rw [hunused.room, List.filter_nil]
    · rcases hpending y hy with rfl | rfl | rfl | hy
      · exact List.not_mem_nil
      · exact List.not_mem_nil
      · exact List.not_mem_nil
      · exact hunused.pending y hy
    · exact hunused.rejoined y (List.mem_filter.mp hy).1
  · have hcreator : w.Creator q c := hc.imp_right fun hc => by simpa using hpending _ hc
    have hprivate := h.hidden c hcreator hparty
    refine ⟨fun x hx => hprivate.room x (List.mem_filter.mp hx).1,
      fun x hjoin => hprivate.joins x (hjoins q x hjoin), fun y hy x hflush => ?_,
      hprivate.emitted, fun x hx => hprivate.rejoined x (List.mem_filter.mp hx).1⟩
    rcases hpending y hy with rfl | rfl | rfl | hy
    · cases hflush
    · cases hflush
    · cases hflush
    · exact hprivate.flushes y hy x hflush

theorem Sealed.request {sid : String} {r : Request} (h : Sealed party q p w)
    (hok : Guarded party q p w (.request sid r))
    (hrun : apply ephemeral w (.request sid r) = some w') : Sealed party q p w' := by
  simp only [apply] at hrun
  split at hrun
  · cases hrun
  rename_i worker hlookup
  split at hrun
  · rename_i hfresh
    obtain rfl := Option.some.inj hrun
    have hsid : sid ∈ w.sids := by
      obtain ⟨l₁, l₂, hsockets, -⟩ := List.lookup_eq_some_iff.mp hlookup
      exact h.sockets (sid, worker) (by simp [hsockets])
    have hpending : ∀ x ∈ pending (w.threads ++ [⟨worker, handler sid r⟩]),
        x ∈ handler sid r ∨ x ∈ pending w.threads := by
      intro x hx
      simp only [pending_append, pending_cons, pending_nil, List.mem_append, List.not_mem_nil,
        or_false] at hx
      exact hx.symm
    have hnames : ∀ x, x ∉ (⟨w.shared, w.threads ++ [⟨worker, handler sid r⟩], w.sockets, w.sids,
        r.names ++ w.queueIds⟩ : World Worker).names → x ∉ r.names ∧ x ∉ w.names := by
      intro x hx
      simp only [World.names, List.mem_append, not_or] at hx ⊢
      tauto
    -- who opens the queue, or names a socket of the party, is of the party
    have hopens : ∀ room, r.Opens room → room ∈ w.names →
        room = q ∨ (room ∈ w.sids ∧ party room = p) → party sid = p := by
      rintro room (rfl | ⟨data, rfl, rfl⟩) hroom hcases
      · exact absurd hroom hfresh
      · exact hok hcases
    refine ⟨h.sockets, fun x hx => ?_, h.own, fun s hs hparty x hjoin => ?_, fun c hc hparty => ?_⟩
    · obtain ⟨hr, hx⟩ := hnames x hx
      have hunused := h.unused x hx
      refine ⟨hunused.room, fun y hy => ?_, hunused.emitted, hunused.created, hunused.rejoined⟩
      rcases hpending y hy with hy | hy
      · exact fun hmem => hr (handler_queueIds hy hmem)
      · exact hunused.pending y hy
    · rcases hpending _ hjoin with hnew | hold
      · obtain ⟨rfl, hopen⟩ := (handler_opens hnew).1 rfl
        exact hopens s hopen (List.mem_append_left _ hs) (Or.inr ⟨hs, hparty⟩)
      · exact h.joins s hs hparty x hold
    · by_cases hcreator : w.Creator q c
      · have hprivate := h.hidden c hcreator hparty
        have hq := hcreator.mem_names h.unused
        refine ⟨hprivate.room, fun x hjoin => ?_, fun y hy x hflush => ?_, hprivate.emitted,
          hprivate.rejoined⟩
        · rcases hpending _ hjoin with hnew | hold
          · obtain ⟨rfl, hopen⟩ := (handler_opens hnew).1 rfl
            exact hopens q hopen hq (Or.inl rfl)
          · exact hprivate.joins x hold
        · rcases hpending y hy with hnew | hold
          · obtain ⟨rfl, hopen⟩ := (handler_opens hnew).2.1 hflush
            exact ⟨hsid, hopens q hopen hq (Or.inl rfl)⟩
          · exact hprivate.flushes y hold x hflush
      · -- the queue has just been drawn for this socket, and nobody knows it
        have hnew : .emitCreated q c ∈ handler sid r := by
          rcases hc with hc | hc
          · exact absurd (Or.inl hc) hcreator
          · exact (hpending _ hc).resolve_right fun hold => hcreator (Or.inr hold)
        obtain ⟨rfl, rfl⟩ := (handler_opens hnew).2.2 rfl
        have hunused := h.unused q hfresh
        refine ⟨fun x hx => ?_, fun x hjoin => ?_, fun y hy x hflush => ?_, fun e he hq => ?_,
          fun x hx => ?_⟩
        · rw [hunused.room] at hx
          cases hx
        · rcases hpending _ hjoin with hnew | hold
          · obtain ⟨rfl, -⟩ := (handler_opens hnew).1 rfl
            exact hparty
          · exact absurd (List.mem_singleton_self q) (hunused.pending _ hold)
        · rcases hpending y hy with hnew | hold
          · obtain ⟨rfl, -⟩ := (handler_opens hnew).2.1 hflush
            exact ⟨hsid, hparty⟩
          · exact absurd (mem_queueIds_of_flushedTo hflush) (hunused.pending y hold)
        · exact absurd hq (hunused.emitted e he)
        · exact absurd hx (hunused.rejoined x)
  · cases hrun

/-- In guarded runs, the payloads of a queue are emitted to the sockets of the
party whose socket was told that it created the queue, and nobody else drains it. -/
theorem emitted_to_creator {c : String}
    (hrun : Run (apply ephemeral) (Guarded party q (party c)) World.init w)
    (hcreated : (q, c) ∈ w.shared.created) :
    (∀ e ∈ w.shared.emitted, e.queueId = q → ∀ sid ∈ e.reached, party sid = party c) ∧
      (∀ sid, (q, sid) ∈ w.shared.rejoined → party sid = party c) ∧
      ∀ instr ∈ pending w.threads, ∀ sid, flushedTo q instr = some sid → party sid = party c := by
  have h : Sealed party q (party c) w := by
    refine hrun.invariant Sealed.init fun w e w' h hok happly => ?_
    cases e with
    | connect sid worker => exact h.connect happly
    | request sid r => exact h.request hok happly
    | disconnect sid => exact h.disconnect happly
    | run i fail => exact h.run happly
  have hprivate := h.hidden c (Or.inl hcreated) rfl
  exact ⟨hprivate.emitted, hprivate.rejoined,
    fun instr hinstr sid hflush => (hprivate.flushes instr hinstr sid hflush).2⟩

end

/-! ## Sample runs -/

instance {Party : Type} [DecidableEq Party] (party : String → Party) (p : Party) (w : World Bool) :
    (e : Event Bool) → Decidable (Guarded party q p w e)
  | .request sid (.rejoinQueue data) => inferInstanceAs (Decidable
      (strip data = q ∨ (strip data ∈ w.sids ∧ party (strip data) = p) → party sid = p))
  | .request _ (.createQueue _) | .request _ (.registerPeer _ _) | .request _ (.pushQueue _ _)
  | .connect _ _ | .disconnect _ | .run _ _ => .isTrue trivial

/-- The second socket of `host` is of the same party. -/
def sampleParty (sid : String) : String := if sid = "host again" then "host" else sid

theorem emitted_to_creator_return :
    ∃ w : World Bool, w.shared.emitted = [⟨"q", "hello", ["host again"]⟩,
        ⟨"q", "are you there?", ["host again"]⟩] ∧
      ∀ e ∈ w.shared.emitted, e.queueId = "q" → ∀ sid ∈ e.reached, sampleParty sid = "host" := by
  have hend : (runAll (apply fun _ => false) (Guarded sampleParty "q" (sampleParty "host"))
      sampleReturn World.init).any (fun w => ("q", "host") ∈ w.shared.created ∧
        w.shared.emitted = [⟨"q", "hello", ["host again"]⟩,
          ⟨"q", "are you there?", ["host again"]⟩]) = true := by
    decide +kernel
  obtain ⟨w, hrun, hw⟩ := Run.exists_of_runAll hend
  obtain ⟨hcreated, hemitted⟩ := of_decide_eq_true hw
  exact ⟨w, hemitted, (emitted_to_creator hrun hcreated).1⟩

/-- `guest` rejoins the queue of `host`, to which `friend` pushes a payload. -/
def sampleIntruder : List (Event Bool) :=
  [.connect "host" true] ++ runs 0 2 ++ [.request "host" (.createQueue "q")] ++ runs 1 8 ++
    [.connect "guest" false] ++ runs 2 2 ++ [.request "guest" (.rejoinQueue "q")] ++ runs 3 8 ++
    [.connect "friend" false] ++ runs 4 2 ++ [.request "friend" (.createQueue "p")] ++ runs 5 8 ++
    [.request "friend" (.registerPeer "p" "q")] ++ runs 6 3 ++
    [.request "friend" (.pushQueue "q" "for host")] ++ runs 7 4

/-- Naming a queue is enough to receive what is pushed to it. -/
theorem emitted_to_guest :
    ¬ ∀ (w : World Bool) (c : String), Run (apply fun _ => false) (fun _ _ => True) World.init w →
      ("q", c) ∈ w.shared.created → ∀ e ∈ w.shared.emitted, e.queueId = "q" →
        ∀ sid ∈ e.reached, sampleParty sid = sampleParty c := by
  intro hall
  have hend : (runAll (apply fun _ => false) (fun _ _ => True) sampleIntruder World.init).any
      (fun w => ("q", "host") ∈ w.shared.created ∧
        ⟨"q", "for host", ["guest", "host"]⟩ ∈ w.shared.emitted) = true := by
    decide +kernel
  obtain ⟨w, hrun, hw⟩ := Run.exists_of_runAll hend
  obtain ⟨hcreated, hemitted⟩ := of_decide_eq_true hw
  have hguest := hall w "host" hrun hcreated _ hemitted rfl "guest" (by decide)
  exact absurd hguest (by decide)

end AnonyMus.Relay
