import AnonyMus.Lib.Interleave
import Mathlib.Data.List.Flatten
import Mathlib.Data.List.Perm.Subperm

/-!
# P2P node — the pool of database connections

`BoundedSQLitePool` and `PooledConnection` of `transports/p2p/database.py`, under any
number of concurrent calls of the module's functions. A function is the sequence of what
it does with connections; any of its own code may raise, and so may `connect` and a `get`
that has waited for ten seconds. One pool is looked at, from the call that makes it;
`close_pool` may come at any time.

* `Function.paths` — what each function does with connections;
* `callStep` — the next step of a call;
* `Healthy` — no starvation, nothing lost, and `created` is right;
* `Harmless` — the steps that do no harm;
* `Accounts` — the invariant of the runs of such steps;
* `pool_healthy_iff` — the pool stays healthy exactly as long as the steps are harmless;
* `editors_starve` — as many edits at once as there are connections.
-/

namespace AnonyMus.P2p.ConnectionPool

open Interleave

/-! ## The functions of the module -/

/-- What a function does, as far as its connections go. -/
inductive Op where
  | code          -- its own code, which may raise
  | guarded       -- its own code inside of `try … finally: conn.close()`
  | getConnection -- `conn = get_connection()`
  | close         -- `conn.close()`
deriving DecidableEq

/-- One connection, given back after the work. -/
def single : List Op := [.code, .getConnection, .code, .close, .code]

/-- One connection, given back after the work or by `finally`. -/
def singleGuarded : List Op := [.code, .getConnection, .code, .guarded, .close, .code]

/-- One call after the other. -/
def times (n : ℕ) (path : List Op) : List Op := (List.replicate n path).flatten

/-- The functions of the module that use the database. -/
inductive Function where
  | initDb | isInitialized | registerLocalUser | loginLocalUser | getConfig | setConfig
  | addContact | getContact | getContacts | updateContactDrState | updateContactKemKeys
  | updateContactDisplayName | getNotifyToken | setNotifyToken | pushNotifyQueue
  | pollNotifyQueue | clearNotifyQueue | updateContactStatus | updateContactMyOnion
  | updateContactSecret | deleteContact | saveMessage | getMessages | deleteMessageById
  | deleteExpiredMessages | setDisappearingTtl | deleteMessageByTimestamp
  | getExpiredMessages | nukeDatabase | resetAppData | migrateContactAddress
  | getLastSequenceNumber | updatePreferredRelay | getPreferredRelay | updateSendReceipts
  | getSendReceipts | updateMessageDeliveryState | addMessageEdit | getMessageEdits
  | updateMessageText | createGroup | getGroups | getGroup | saveAbuseReport
  | getAbuseReports | saveSupporterBadge | getSupporterBadge | addGroupMember
  | removeGroupMember | getGroupMembers | saveGroupMessage | getGroupMessages
  | createGroupInvite | useGroupInvite | addMemberVouch | getMemberVouches | createProfile
  | getProfiles | getProfile | verifyHiddenProfile
deriving DecidableEq

/-- The ways through a function where nothing raises. -/
def Function.paths : Function → List (List Op)
  -- `is_initialized`, and then the insertions
  | .registerLocalUser => [single, single ++ singleGuarded]
  -- not initialised; locked out; not configured; a failure without and with a lockout, a success
  | .loginLocalUser => [single, times 2 single, times 3 single, times 5 single, times 6 single]
  | .addContact | .saveMessage => [singleGuarded]
  -- the two addresses may be the same
  | .migrateContactAddress => [[.code], singleGuarded]
  -- there may be no tokens
  | .pollNotifyQueue | .clearNotifyQueue => [[.code], single]
  -- a message that is found goes into the history first, by `add_message_edit`
  | .updateMessageText =>
      [single, [.code, .getConnection, .code] ++ single ++ [.code, .close, .code]]
  | _ => [single]

/-! ## The pool -/

/-- A connection to the file, by the order in which they have been opened. -/
abbrev Conn := ℕ

structure BoundedSQLitePool where
  maxConnections : ℕ
  queue          : List Conn
  created        : ℕ
  activeConns    : List Conn

/-- A `PooledConnection` that has not been closed. -/
inductive PooledConnection where
  | own (conn : Conn)   -- a connection of the pool, with the pool
  | stray (conn : Conn) -- a connection of the pool, when `_pool` was it no more
  | other               -- a connection of a later pool
deriving DecidableEq

/-- The connection of the pool that will be put back. -/
def PooledConnection.conn? : PooledConnection → Option Conn
  | .own conn => some conn
  | .stray _ | .other => none

/-- Where a call is. -/
inductive Stage where
  | running (ops : List Op)
  | locking (ops : List Op)                -- in `get`, which has found the queue empty
  | waiting (ops : List Op)                -- in `self.queue.get(timeout=10)`
  | wrapping (conn : Conn) (ops : List Op) -- back from `get`
deriving DecidableEq

/-- Whether what raises is caught, or leads to the `finally`. -/
def Stage.inTry : Stage → Bool
  | .running (.guarded :: _) => true
  | _ => false

structure Call where
  held  : List PooledConnection
  stage : Stage
deriving DecidableEq

def Call.Ended (call : Call) : Prop := call.stage = .running []

/-- The connections of the pool that a call has, and will put back. -/
def Call.conns (call : Call) : List Conn :=
  (match call.stage with
    | .wrapping conn _ => [conn]
    | _ => []) ++ call.held.filterMap PooledConnection.conn?

/-- The connections that a call has while it waits for another one. -/
def Call.waitingConns (call : Call) : List Conn :=
  match call.stage with
  | .waiting _ => call.conns
  | _ => []

/-- The pool, whether `_pool` is still it, the open connections and the calls. -/
structure Node where
  pool    : BoundedSQLitePool
  current : Bool
  opened  : List Conn
  next    : Conn

structure State where
  node  : Node
  calls : List Call

def init (maxConnections : ℕ) : State := ⟨⟨⟨maxConnections, [], 0, []⟩, true, [], 0⟩, []⟩

/-- `put`; a queue without a maximal size is never full. -/
def Node.put (node : Node) (conn : Conn) : Node :=
  if node.pool.maxConnections = 0 ∨ node.pool.queue.length < node.pool.maxConnections then
    { node with pool.queue := node.pool.queue ++ [conn] }
  else
    { node with
      opened := node.opened.erase conn
      pool.created := node.pool.created - 1
      pool.activeConns := node.pool.activeConns.erase conn }

/-- `sqlite3.connect` and the pragmas, under the lock. -/
def Node.connect (node : Node) : Node :=
  { node with
    opened := node.opened ++ [node.next]
    next := node.next + 1
    pool.created := node.pool.created + 1
    pool.activeConns := node.pool.activeConns ++ [node.next] }

/-- `get_connection`, when `DB_FILE` has come to name another file: `_pool` is replaced. -/
def Node.replacePool (node : Node) : Node :=
  if node.current then
    { node with
      current := false
      opened := node.opened.filter (· ∉ node.pool.activeConns) }
  else node

/-- `close_pool`, which is done with the pools it has closed; `created` stays as it is. -/
def Node.closePool (node : Node) : Node :=
  if node.current then
    { node with
      current := false
      opened := node.opened.filter (· ∉ node.pool.activeConns)
      pool.activeConns := []
      pool.queue := [] }
  else node

/-- The next step of a call that does not raise. -/
def callStep (node : Node) (call : Call) : Option (Node × Call) :=
  match call.stage with
  | .running [] => none
  | .running (.code :: ops) | .running (.guarded :: ops) =>
      some (node, { call with stage := .running ops })
  | .running (.getConnection :: ops) =>
      if node.current then
        match node.pool.queue with
        | conn :: rest =>
            some ({ node with pool.queue := rest }, { call with stage := .wrapping conn ops })
        | [] => some (node, { call with stage := .locking ops })
      else
        -- another pool is made, or has been
        some (node, ⟨.other :: call.held, .running ops⟩)
  | .running (.close :: ops) =>
      match call.held with
      | .own conn :: held => some (node.put conn, ⟨held, .running ops⟩)
      | _ :: held => some (node, ⟨held, .running ops⟩)
      | [] => none
  | .locking ops =>
      if node.pool.created < node.pool.maxConnections then
        some (node.connect, { call with stage := .wrapping node.next ops })
      else
        some (node, { call with stage := .waiting ops })
  | .waiting ops =>
      match node.pool.queue with
      | conn :: rest =>
          some ({ node with pool.queue := rest }, { call with stage := .wrapping conn ops })
      | [] => none
  | .wrapping conn ops =>
      some (node, ⟨(if node.current then .own conn else .stray conn) :: call.held, .running ops⟩)

/-- The next step of a call that raises: it ends the call, unless it is in a `try`. -/
def callRaise (node : Node) (call : Call) : Option Call :=
  match call.stage with
  | .running (.code :: _) => some { call with stage := .running [] }
  | .running (.guarded :: ops) =>
      some { call with stage := .running (ops.dropWhile (· ≠ .close)) }
  -- `_pool` was set to `None` after it had been looked at, or the other pool has raised
  | .running (.getConnection :: _) =>
      if node.current then none else some { call with stage := .running [] }
  | .running (.close :: _) =>
      match call.held with
      | .own _ :: _ | [] => none
      | _ :: _ => some { call with stage := .running [] }
  -- the connection of a pragma that raises is closed when it is dropped
  | .locking _ =>
      if node.pool.created < node.pool.maxConnections then
        some { call with stage := .running [] }
      else none
  | .waiting _ => if node.pool.queue = [] then some { call with stage := .running [] } else none
  | .running [] | .wrapping _ _ => none

/-- A function is called, a call takes its next step or raises, or the pool is abandoned. -/
inductive Event where
  | call (function : Function) (path : List Op)
  | step (i : ℕ)
  | raise (i : ℕ)
  | replacePool
  | closePool

def State.apply (s : State) : Event → Option State
  | .call function path =>
      if path ∈ function.paths then some ⟨s.node, s.calls ++ [⟨[], .running path⟩]⟩ else none
  | .step i =>
      s.calls[i]?.bind fun call =>
        (callStep s.node call).map fun out => ⟨out.1, s.calls.set i out.2⟩
  | .raise i =>
      s.calls[i]?.bind fun call =>
        (callRaise s.node call).map fun call' => ⟨s.node, s.calls.set i call'⟩
  | .replacePool => some ⟨s.node.replacePool, s.calls⟩
  | .closePool => some ⟨s.node.closePool, s.calls⟩

/-! ## A healthy pool -/

def State.conns (s : State) : List Conn := s.calls.flatMap Call.conns

def State.waitingConns (s : State) : List Conn := s.calls.flatMap Call.waitingConns

/-- Every connection is held by a call that waits in `get`. -/
def Starved (s : State) : Prop :=
  s.node.opened ≠ [] ∧
    ∀ conn ∈ s.node.opened, ∃ call ∈ s.calls, conn ∈ call.waitingConns

structure Healthy (s : State) : Prop where
  notStarved : ¬ Starved s
  -- a call has closed what it has obtained when it ends, and an open connection is idle
  -- or with one call
  returned   : ∀ call ∈ s.calls, call.Ended → call.held = []
  accounted  : (s.node.pool.queue ++ s.conns).Perm s.node.opened
  created    : s.node.pool.created = s.node.opened.length
  bounded    : s.node.pool.created ≤ s.node.pool.maxConnections

/-- The step of a call neither takes a connection from a pool that is not the current one
nor, in a `get` for a second connection, waits as the last that could give one back. -/
def HarmlessStep (s : State) (call : Call) : Prop :=
  match call.stage with
  | .wrapping _ _ => s.node.current = true
  | .locking _ =>
      s.node.pool.created < s.node.pool.maxConnections ∨ call.conns = [] ∨
        (s.waitingConns ++ call.conns).length < s.node.pool.maxConnections
  | _ => True

/-- A call raises while it holds no connection, or inside of its `try`. -/
def HarmlessRaise (call : Call) : Prop :=
  call.held = [] ∨ call.stage.inTry = true

/-- The pool is abandoned before it has opened a connection, or has been before. -/
def Harmless (s : State) : Event → Prop
  | .call _ _ => True
  | .step i => ∀ call ∈ s.calls[i]?, HarmlessStep s call
  | .raise i => ∀ call ∈ s.calls[i]?, HarmlessRaise call
  | .replacePool | .closePool => s.node.current = true → s.node.opened = []

instance (s : State) : Decidable (Starved s) := inferInstanceAs (Decidable (_ ∧ _))

instance (s : State) : DecidablePred (HarmlessStep s)
  | ⟨_, .wrapping _ _⟩ => inferInstanceAs (Decidable (_ = _))
  | ⟨_, .locking _⟩ => inferInstanceAs (Decidable (_ ∨ _ ∨ _))
  | ⟨_, .running _⟩ | ⟨_, .waiting _⟩ => .isTrue trivial

instance : DecidablePred HarmlessRaise := fun _ => inferInstanceAs (Decidable (_ ∨ _))

instance (s : State) : ∀ e, Decidable (Harmless s e)
  | .call _ _ => .isTrue trivial
  | .step _ => inferInstanceAs (Decidable (∀ call ∈ _, HarmlessStep s call))
  | .raise _ => inferInstanceAs (Decidable (∀ call ∈ _, HarmlessRaise call))
  | .replacePool | .closePool => inferInstanceAs (Decidable (_ → _))

/-! ## What is left of a function -/

/-- A function that has `depth` connections will have closed them when it ends. -/
def balanced : ℕ → List Op → Bool
  | depth, [] => depth == 0
  | depth, .code :: ops => balanced depth ops
  -- the `finally` comes next
  | depth, .guarded :: ops => ops.head? == some .close && balanced depth ops
  | depth, .getConnection :: ops => balanced (depth + 1) ops
  | 0, .close :: _ => false
  | depth + 1, .close :: ops => balanced depth ops

theorem balanced_guarded {depth : ℕ} {ops : List Op}
    (h : balanced depth (.guarded :: ops) = true) :
    balanced depth ops = true ∧ ops.dropWhile (· ≠ .close) = ops := by
  obtain ⟨hclose, hops⟩ := Bool.and_eq_true_iff.mp h
  rcases ops with _ | ⟨op, ops⟩
  · cases hclose
  · obtain rfl : op = .close := by simpa using hclose
    exact ⟨hops, rfl⟩

theorem balanced_of_mem_paths (function : Function) :
    ∀ path ∈ function.paths, balanced 0 path = true := by
  cases function <;> decide

def Call.Settles (call : Call) : Prop :=
  match call.stage with
  | .running ops => balanced call.held.length ops = true
  | .locking ops | .waiting ops | .wrapping _ ops => balanced (call.held.length + 1) ops = true

theorem Call.Settles.held_eq_nil {call : Call} (h : call.Settles) (hended : call.Ended) :
    call.held = [] := by
  rw [Call.Settles, hended] at h
  simpa [balanced] using h

theorem settles_callStep {node node' : Node} {call call' : Call} (h : call.Settles)
    (hstep : callStep node call = some (node', call')) : call'.Settles := by
  obtain ⟨held, stage⟩ := call
  -- every step leaves the rest of the operations in balance with what is held
  cases stage with
  | running ops =>
    rcases ops with _ | ⟨op, ops⟩
    · cases hstep
    cases op with
    | code =>
      cases hstep
      exact h
    | guarded =>
      cases hstep
      exact (balanced_guarded h).1
    | getConnection =>
      simp only [callStep] at hstep
      split at hstep
      · split at hstep <;> cases hstep <;> exact h
      · cases hstep
        exact h
    | close =>
      rcases held with _ | ⟨_ | _ | _, held⟩ <;> cases hstep <;> exact h
  | locking ops =>
    simp only [callStep] at hstep
    split at hstep <;> cases hstep <;> exact h
  | waiting ops =>
    simp only [callStep] at hstep
    split at hstep
    · cases hstep
      exact h
    · cases hstep
  | wrapping conn ops =>
    cases hstep
    exact h

/-- A call that raises ends, unless it is in its `try`. -/
theorem callRaise_cases {node : Node} {call call' : Call}
    (hraise : callRaise node call = some call') :
    call'.held = call.held ∧ call'.conns = call.conns ∧ call'.waitingConns = [] ∧
      ((call.stage.inTry = false ∧ call'.Ended) ∨
        ∃ ops, call.stage = .running (.guarded :: ops) ∧
          call'.stage = .running (ops.dropWhile (· ≠ .close))) := by
  obtain ⟨held, stage⟩ := call
  cases stage with
  | running ops =>
    rcases ops with _ | ⟨op, ops⟩
    · cases hraise
    cases op with
    | code =>
      cases hraise
      exact ⟨rfl, rfl, rfl, .inl ⟨rfl, rfl⟩⟩
    -- inside the `try`, what comes next is the `close` of its `finally`
    | guarded =>
      cases hraise
      exact ⟨rfl, rfl, rfl, .inr ⟨ops, rfl, rfl⟩⟩
    | getConnection =>
      simp only [callRaise] at hraise
      split at hraise
      · cases hraise
      · cases hraise
        exact ⟨rfl, rfl, rfl, .inl ⟨rfl, rfl⟩⟩
    | close =>
      rcases held with _ | ⟨_ | _ | _, held⟩ <;> cases hraise <;>
        exact ⟨rfl, rfl, rfl, .inl ⟨rfl, rfl⟩⟩
  | locking ops =>
    simp only [callRaise] at hraise
    split at hraise
    · cases hraise
      exact ⟨rfl, rfl, rfl, .inl ⟨rfl, rfl⟩⟩
    · cases hraise
  | waiting ops =>
    simp only [callRaise] at hraise
    split at hraise
    · cases hraise
      exact ⟨rfl, rfl, rfl, .inl ⟨rfl, rfl⟩⟩
    · cases hraise
  | wrapping conn ops => cases hraise

theorem settles_callRaise {node : Node} {call call' : Call} (h : call.Settles)
    (hharmless : HarmlessRaise call) (hraise : callRaise node call = some call') :
    call'.Settles := by
  obtain ⟨hheld, -, -, ⟨hnot, hended⟩ | ⟨ops, hstage, hstage'⟩⟩ := callRaise_cases hraise
  · rcases hharmless with hnone | htry
    · rw [Call.Settles, hended, hheld, hnone]
      rfl
    · rw [hnot] at htry
      cases htry
  · rw [Call.Settles, hstage] at h
    obtain ⟨hops, hclose⟩ := balanced_guarded h
    rw [Call.Settles, hstage', hheld, hclose]
    exact hops

/-! ## Starvation, by numbers -/

theorem Call.waitingConns_sublist (call : Call) : call.waitingConns.Sublist call.conns := by
  unfold Call.waitingConns
  split
  · exact List.Sublist.refl _
  · exact List.nil_sublist _

/-- The connections of the waiting calls are among the open ones. -/
theorem waitingConns_subperm {s : State}
    (h : (s.node.pool.queue ++ s.conns).Perm s.node.opened) :
    s.waitingConns.Subperm s.node.opened := by
  have hcalls : s.waitingConns.Sublist s.conns :=
    List.Sublist.flatMap_right s.calls fun call _ => call.waitingConns_sublist
  have hall : s.waitingConns.Sublist (s.node.pool.queue ++ s.conns) :=
    hcalls.trans (List.sublist_append_right _ _)
  exact hall.subperm.trans h.subperm

theorem starved_iff {s : State} (h : (s.node.pool.queue ++ s.conns).Perm s.node.opened)
    (hnodup : s.node.opened.Nodup) :
    Starved s ↔ s.node.opened ≠ [] ∧ s.node.opened.length ≤ s.waitingConns.length := by
  have hmem : ∀ conn, conn ∈ s.waitingConns ↔ ∃ call ∈ s.calls, conn ∈ call.waitingConns :=
    fun conn => List.mem_flatMap
  constructor
  · -- the open connections differ from each other, and each is with a waiting call
    rintro ⟨hopened, hheld⟩
    refine ⟨hopened, (List.subperm_of_subset hnodup fun conn hconn => ?_).length_le⟩
    exact (hmem conn).mpr (hheld conn hconn)
  · rintro ⟨hopened, hlength⟩
    have hperm := (waitingConns_subperm h).perm_of_length_le hlength
    exact ⟨hopened, fun conn hconn => (hmem conn).mp (hperm.symm.subset hconn)⟩

/-! ## Harmless runs -/

/-- What holds in a run of harmless steps. -/
structure Accounts (s : State) : Prop extends Healthy s where
  active  : s.node.pool.activeConns = s.node.opened
  fresh   : ∀ conn ∈ s.node.opened, conn < s.node.next
  nodup   : s.node.opened.Nodup
  settles : ∀ call ∈ s.calls, call.Settles

theorem accounts_init (maxConnections : ℕ) : Accounts (init maxConnections) where
  notStarved h := h.1 rfl
  returned _ hcall := nomatch hcall
  accounted := .refl _
  created := rfl
  bounded := Nat.zero_le _
  active := rfl
  fresh _ hconn := nomatch hconn
  nodup := .nil
  settles _ hcall := nomatch hcall

section Step

variable {node node' : Node} {calls₁ calls₂ : List Call} {call call' : Call}

theorem conns_split :
    State.conns ⟨node, calls₁ ++ call :: calls₂⟩ =
      calls₁.flatMap Call.conns ++ (call.conns ++ calls₂.flatMap Call.conns) := by
  simp [State.conns]

theorem waitingConns_length :
    (State.waitingConns ⟨node, calls₁ ++ call :: calls₂⟩).length =
      (calls₁.flatMap Call.waitingConns).length + call.waitingConns.length +
        (calls₂.flatMap Call.waitingConns).length := by
  simp only [State.waitingConns, List.flatMap_append, List.flatMap_cons, List.length_append]
  omega

/-- What a call exchanges with the queue stays accounted for. -/
theorem perm_replace {queue queue' opened : List Conn}
    (hown : (queue' ++ call'.conns).Perm (queue ++ call.conns))
    (h : (queue ++ State.conns ⟨node, calls₁ ++ call :: calls₂⟩).Perm opened) :
    (queue' ++ State.conns ⟨node', calls₁ ++ call' :: calls₂⟩).Perm opened := by
  -- each connection is counted in the queue, with the call and with the others
  rw [List.perm_iff_count] at hown h ⊢
  intro conn
  have hown := hown conn
  have h := h conn
  simp only [conns_split, List.count_append] at hown h ⊢
  omega

theorem Accounts.settles_replace (h : Accounts ⟨node, calls₁ ++ call :: calls₂⟩)
    (hsettles : call'.Settles) : ∀ other ∈ calls₁ ++ call' :: calls₂, other.Settles := by
  intro other hother
  rcases List.mem_append.mp hother with hmem | hmem
  · exact h.settles other (List.mem_append_left _ hmem)
  · rcases List.mem_cons.mp hmem with rfl | hmem
    · exact hsettles
    · exact h.settles other (List.mem_append_right _ (List.mem_cons_of_mem _ hmem))

/-- A step that opens and closes no connection. -/
theorem Accounts.replace (h : Accounts ⟨node, calls₁ ++ call :: calls₂⟩) (queue' : List Conn)
    (hown : (queue' ++ call'.conns).Perm (node.pool.queue ++ call.conns))
    (hnotStarved : ¬ Starved ⟨node, calls₁ ++ call' :: calls₂⟩) (hsettles : call'.Settles) :
    Accounts ⟨{ node with pool.queue := queue' }, calls₁ ++ call' :: calls₂⟩ :=
  have hall := h.settles_replace hsettles
  ⟨⟨hnotStarved, fun other hother => (hall other hother).held_eq_nil,
    perm_replace hown h.accounted, h.created, h.bounded⟩, h.active, h.fresh, h.nodup, hall⟩

/-- A step that opens and closes no connection, and after which the call does not wait. -/
theorem Accounts.keep (h : Accounts ⟨node, calls₁ ++ call :: calls₂⟩) (queue' : List Conn)
    (hown : (queue' ++ call'.conns).Perm (node.pool.queue ++ call.conns))
    (hwaiting : call'.waitingConns = []) (hsettles : call'.Settles) :
    Accounts ⟨{ node with pool.queue := queue' }, calls₁ ++ call' :: calls₂⟩ := by
  let s' : State := ⟨{ node with pool.queue := queue' }, calls₁ ++ call' :: calls₂⟩
  have haccounted : (s'.node.pool.queue ++ s'.conns).Perm s'.node.opened :=
    perm_replace hown h.accounted
  refine h.replace queue' hown (fun hstarved => ?_) hsettles
  -- fewer connections are with waiting calls than before
  have hbefore := (starved_iff h.accounted h.nodup).not.mp h.notStarved
  obtain ⟨hopened, hlength⟩ := (starved_iff haccounted h.nodup).mp hstarved
  refine hbefore ⟨hopened, Nat.le_trans hlength ?_⟩
  simp only [s', waitingConns_length, hwaiting, List.length_nil]
  omega

/-- A step that opens a connection for the call. -/
theorem Accounts.connect (h : Accounts ⟨node, calls₁ ++ call :: calls₂⟩)
    (hless : node.pool.created < node.pool.maxConnections)
    (hown : call'.conns = node.next :: call.conns) (hwaiting : call'.waitingConns = [])
    (hsettles : call'.Settles) :
    Accounts ⟨node.connect, calls₁ ++ call' :: calls₂⟩ := by
  let s' : State := ⟨node.connect, calls₁ ++ call' :: calls₂⟩
  have hcreated : node.pool.created = node.opened.length := h.created
  have haccounted : (s'.node.pool.queue ++ s'.conns).Perm s'.node.opened := by
    have hbefore := h.accounted
    rw [List.perm_iff_count] at hbefore ⊢
    intro conn
    have hbefore := hbefore conn
    simp only [s', Node.connect, conns_split, hown, List.count_append, List.count_cons,
      List.count_nil] at hbefore ⊢
    omega
  have hnodup : s'.node.opened.Nodup := by
    refine List.nodup_append.mpr ⟨h.nodup, List.nodup_singleton _, ?_⟩
    rintro conn hconn _ hnext rfl
    rw [List.mem_singleton.mp hnext] at hconn
    exact absurd (h.fresh node.next hconn) (Nat.lt_irrefl _)
  have hall : ∀ other ∈ calls₁ ++ call' :: calls₂, other.Settles := h.settles_replace hsettles
  refine ⟨⟨fun hstarved => ?_, fun other hother => (hall other hother).held_eq_nil, haccounted,
    ?_, Nat.succ_le_of_lt hless⟩, ?_, ?_, hnodup, hall⟩
  · -- the new connection is with a call that does not wait
    obtain ⟨-, hlength⟩ := (starved_iff haccounted hnodup).mp hstarved
    have hbefore := (waitingConns_subperm h.accounted).length_le
    simp only [s', Node.connect, waitingConns_length, hwaiting, List.length_append,
      List.length_cons, List.length_nil] at hlength hbefore
    omega
  · simp [Node.connect, hcreated]
  · exact congrArg (· ++ [node.next]) h.active
  · intro conn hconn
    rcases List.mem_append.mp hconn with hmem | hmem
    · exact Nat.lt_succ_of_lt (h.fresh conn hmem)
    · rw [List.mem_singleton.mp hmem]
      exact Nat.lt_succ_self _

/-- A connection that a call gives back has room in the queue. -/
theorem Accounts.put_eq (h : Accounts ⟨node, calls₁ ++ call :: calls₂⟩) (conn : Conn)
    (hconn : conn ∈ call.conns) :
    node.put conn = { node with pool.queue := node.pool.queue ++ [conn] } := by
  -- the queue holds no more than the open connections that are not with this call
  have hlength := h.accounted.length_eq
  have hcreated : node.pool.created = node.opened.length := h.created
  have hbounded : node.pool.created ≤ node.pool.maxConnections := h.bounded
  have hpos := List.length_pos_of_mem hconn
  simp only [conns_split, List.length_append] at hlength
  rw [Node.put, if_pos (by omega)]

/-- A call that waits as the last that could give a connection back starves the pool. -/
theorem Accounts.waiting_iff (h : Accounts ⟨node, calls₁ ++ call :: calls₂⟩) (call' : Call)
    (hfull : ¬ node.pool.created < node.pool.maxConnections)
    (hcall : call.waitingConns = []) (hcall' : call'.waitingConns = call.conns)
    (hown : call'.conns = call.conns) :
    Starved ⟨node, calls₁ ++ call' :: calls₂⟩ ↔
      ¬ (call.conns = [] ∨
        (State.waitingConns ⟨node, calls₁ ++ call :: calls₂⟩ ++ call.conns).length <
          node.pool.maxConnections) := by
  let s' : State := ⟨node, calls₁ ++ call' :: calls₂⟩
  have haccounted : (s'.node.pool.queue ++ s'.conns).Perm s'.node.opened :=
    perm_replace (hown ▸ .refl _) h.accounted
  have hcreated : node.pool.created = node.opened.length := h.created
  have hbounded : node.pool.created ≤ node.pool.maxConnections := h.bounded
  have hbefore := (starved_iff h.accounted h.nodup).not.mp h.notStarved
  have hlength := h.accounted.length_eq
  rw [starved_iff haccounted h.nodup]
  simp only [ne_eq, ← List.length_eq_zero_iff, List.length_append, conns_split, s',
    waitingConns_length, hcall, hcall', List.length_nil] at hlength hbefore ⊢
  omega

theorem Accounts.step (h : Accounts ⟨node, calls₁ ++ call :: calls₂⟩)
    (hharmless : HarmlessStep ⟨node, calls₁ ++ call :: calls₂⟩ call)
    (hstep : callStep node call = some (node', call')) :
    Accounts ⟨node', calls₁ ++ call' :: calls₂⟩ := by
  have hsettles : call'.Settles := settles_callStep (h.settles call (by simp)) hstep
  have hput := h.put_eq
  obtain ⟨held, stage⟩ := call
  cases stage with
  | running ops =>
    rcases ops with _ | ⟨op, ops⟩
    · cases hstep
    cases op with
    | code | guarded =>
      cases hstep
      exact h.keep _ (.refl _) rfl hsettles
    | getConnection =>
      simp only [callStep] at hstep
      split at hstep
      · split at hstep
        · -- an idle connection goes from the queue to the call
          rename_i conn rest hqueue
          cases hstep
          refine h.keep rest ?_ rfl hsettles
          rw [hqueue]
          exact List.perm_middle
        · cases hstep
          exact h.keep _ (.refl _) rfl hsettles
      · cases hstep
        exact h.keep _ (.refl _) rfl hsettles
    | close =>
      rcases held with _ | ⟨conn | conn | _, held⟩
      · cases hstep
      · -- and goes back
        cases hstep
        rw [hput conn (by simp [Call.conns, PooledConnection.conn?])]
        refine h.keep _ ?_ rfl hsettles
        rw [List.append_assoc]
        exact .refl _
      all_goals
        cases hstep
        exact h.keep _ (.refl _) rfl hsettles
  | locking ops =>
    simp only [callStep] at hstep
    split at hstep
    · rename_i hless
      cases hstep
      exact h.connect hless rfl rfl hsettles
    · -- the call waits with what it holds
      rename_i hfull
      cases hstep
      have hwaiting := h.waiting_iff ⟨held, .waiting ops⟩ hfull rfl rfl rfl
      refine h.replace _ (.refl _) (fun hstarved => ?_) hsettles
      exact hwaiting.mp hstarved (hharmless.resolve_left hfull)
  | waiting ops =>
    simp only [callStep] at hstep
    split at hstep
    · rename_i conn rest hqueue
      cases hstep
      refine h.keep rest ?_ rfl hsettles
      rw [hqueue]
      exact List.perm_middle
    · cases hstep
  | wrapping conn ops =>
    have hcurrent : node.current = true := hharmless
    simp only [callStep, hcurrent, if_true] at hstep
    cases hstep
    exact h.keep _ (.refl _) rfl hsettles

/-- A step that leaves the pool healthy has been harmless. -/
theorem Accounts.harmlessStep (h : Accounts ⟨node, calls₁ ++ call :: calls₂⟩)
    (hstep : callStep node call = some (node', call'))
    (hhealthy : Healthy ⟨node', calls₁ ++ call' :: calls₂⟩) :
    HarmlessStep ⟨node, calls₁ ++ call :: calls₂⟩ call := by
  obtain ⟨held, stage⟩ := call
  cases stage with
  | running ops => trivial
  | waiting ops => trivial
  | locking ops =>
    by_cases hless : node.pool.created < node.pool.maxConnections
    · exact .inl hless
    · simp only [callStep, if_neg hless] at hstep
      cases hstep
      have hwaiting := h.waiting_iff ⟨held, .waiting ops⟩ hless rfl rfl rfl
      exact .inr (not_not.mp (hwaiting.not.mp hhealthy.notStarved))
  | wrapping conn ops =>
    by_contra hcurrent
    change ¬ node.current = true at hcurrent
    simp only [callStep, if_neg hcurrent] at hstep
    cases hstep
    -- the connection is open, and neither idle nor with a call
    have hbefore := h.accounted.length_eq
    have hafter := hhealthy.accounted.length_eq
    have hlost : (Call.conns ⟨held, .wrapping conn ops⟩).length =
        (Call.conns ⟨.stray conn :: held, .running ops⟩).length + 1 := rfl
    simp only [conns_split, List.length_append] at hbefore hafter
    omega

theorem Accounts.raise (h : Accounts ⟨node, calls₁ ++ call :: calls₂⟩)
    (hharmless : HarmlessRaise call) (hraise : callRaise node call = some call') :
    Accounts ⟨node, calls₁ ++ call' :: calls₂⟩ := by
  obtain ⟨-, hconns, hwaiting, -⟩ := callRaise_cases hraise
  have hsettles := settles_callRaise (h.settles call (by simp)) hharmless hraise
  exact h.keep _ (hconns ▸ .refl _) hwaiting hsettles

/-- A raise that leaves the pool healthy has been harmless. -/
theorem harmlessRaise_of_healthy (hraise : callRaise node call = some call')
    (hhealthy : Healthy ⟨node, calls₁ ++ call' :: calls₂⟩) : HarmlessRaise call := by
  obtain ⟨hheld, -, -, ⟨-, hended⟩ | ⟨ops, hstage, -⟩⟩ := callRaise_cases hraise
  · exact .inl (hheld ▸ hhealthy.returned call' (by simp) hended)
  · exact .inr (by rw [hstage]; rfl)

end Step

/-! ## The pool abandoned -/

/-- `replacePool` and `closePool` close what is open, and leave `created` as it is. -/
theorem opened_abandon {s : State} {e : Event} {s' : State} (h : Accounts s)
    (hcurrent : s.node.current = true) (he : e = .replacePool ∨ e = .closePool)
    (happly : s.apply e = some s') :
    s'.node.opened = [] ∧ s'.node.pool.created = s.node.pool.created ∧ s'.calls = s.calls ∧
      (s.node.opened = [] → s'.node.pool.activeConns = [] ∧ s'.node.pool.queue = []) := by
  have hclosed : s.node.opened.filter (· ∉ s.node.pool.activeConns) = [] := by
    rw [h.active]
    exact List.filter_eq_nil_iff.mpr fun conn hconn => by simpa using hconn
  have hqueue : s.node.opened = [] → s.node.pool.queue = [] := fun hopened =>
    (List.append_eq_nil_iff.mp (List.perm_nil.mp (hopened ▸ h.accounted))).1
  rcases he with rfl | rfl <;> cases happly
  · rw [show s.node.replacePool = _ from if_pos hcurrent]
    exact ⟨hclosed, rfl, rfl, fun hopened => ⟨h.active.trans hopened, hqueue hopened⟩⟩
  · rw [show s.node.closePool = _ from if_pos hcurrent]
    exact ⟨hclosed, rfl, rfl, fun _ => ⟨rfl, rfl⟩⟩

/-- A pool that is no longer the current one is left alone. -/
theorem apply_abandon_of_not_current {s s' : State} {e : Event} (hcurrent : s.node.current = false)
    (he : e = .replacePool ∨ e = .closePool) (happly : s.apply e = some s') : s' = s := by
  have hnot : ¬ s.node.current = true := by simp [hcurrent]
  rcases he with rfl | rfl <;> cases happly
  · rw [show s.node.replacePool = _ from if_neg hnot]
  · rw [show s.node.closePool = _ from if_neg hnot]

theorem Accounts.abandon {s s' : State} {e : Event} (h : Accounts s)
    (hharmless : s.node.current = true → s.node.opened = [])
    (he : e = .replacePool ∨ e = .closePool) (happly : s.apply e = some s') : Accounts s' := by
  cases hcurrent : s.node.current with
  | false => exact apply_abandon_of_not_current hcurrent he happly ▸ h
  | true =>
    have hopened := hharmless hcurrent
    obtain ⟨hopened', hcreated, hcalls, hrest⟩ := opened_abandon h hcurrent he happly
    obtain ⟨hactive, hqueue⟩ := hrest hopened
    have hconns : s'.conns = [] := by
      rw [State.conns, hcalls]
      exact (List.append_eq_nil_iff.mp (List.perm_nil.mp (hopened ▸ h.accounted))).2
    have hnone : s'.node.pool.created = 0 := by rw [hcreated, h.created, hopened]; rfl
    constructor
    · constructor
      · exact fun hstarved => hstarved.1 hopened'
      · exact hcalls ▸ h.returned
      · rw [hqueue, hconns, hopened']
        exact .refl _
      · rw [hnone, hopened']
        rfl
      · exact hnone ▸ Nat.zero_le _
    · rw [hactive, hopened']
    · simp [hopened']
    · exact hopened' ▸ .nil
    · exact hcalls ▸ h.settles

/-- A pool that stays healthy when it is abandoned has had no connections. -/
theorem Accounts.harmless_abandon {s s' : State} {e : Event} (h : Accounts s)
    (he : e = .replacePool ∨ e = .closePool) (happly : s.apply e = some s')
    (hhealthy : Healthy s') (hcurrent : s.node.current = true) : s.node.opened = [] := by
  obtain ⟨hopened', hcreated, -, -⟩ := opened_abandon h hcurrent he happly
  have hlength := hhealthy.created
  rw [hopened', hcreated, h.created] at hlength
  exact List.length_eq_zero_iff.mp hlength

/-! ## All runs -/

/-- A new call has nothing yet. -/
theorem Accounts.call {s : State} (h : Accounts s) {path : List Op}
    (hpath : balanced 0 path = true) : Accounts ⟨s.node, s.calls ++ [⟨[], .running path⟩]⟩ := by
  have hconns : State.conns ⟨s.node, s.calls ++ [⟨[], .running path⟩]⟩ = s.conns := by
    simp [State.conns, Call.conns]
  have hall : ∀ call ∈ s.calls ++ [⟨[], .running path⟩], call.Settles := by
    intro call hcall
    rcases List.mem_append.mp hcall with hmem | hmem
    · exact h.settles call hmem
    · rw [List.mem_singleton.mp hmem]
      exact hpath
  refine ⟨⟨fun hstarved => h.notStarved ⟨hstarved.1, fun conn hconn => ?_⟩,
    fun call hcall => (hall call hcall).held_eq_nil, hconns ▸ h.accounted, h.created, h.bounded⟩,
    h.active, h.fresh, h.nodup, hall⟩
  obtain ⟨call, hcall, hwaits⟩ := hstarved.2 conn hconn
  rcases List.mem_append.mp hcall with hmem | hmem
  · exact ⟨call, hmem, hwaits⟩
  · rw [List.mem_singleton.mp hmem] at hwaits
    cases hwaits

/-- What a harmless event keeps. -/
theorem Accounts.apply {s s' : State} {e : Event} (h : Accounts s) (hharmless : Harmless s e)
    (happly : s.apply e = some s') : Accounts s' := by
  cases e with
  | call function path =>
    simp only [State.apply] at happly
    split at happly
    · rename_i hpath
      cases happly
      exact h.call (balanced_of_mem_paths function path hpath)
    · cases happly
  | step i =>
    obtain ⟨call, hcall, hmap⟩ := Option.bind_eq_some_iff.mp happly
    obtain ⟨⟨node', call'⟩, hstep, rfl⟩ := Option.map_eq_some_iff.mp hmap
    obtain ⟨node, calls⟩ := s
    obtain ⟨calls₁, calls₂, rfl, -, hset⟩ := getElem?_split hcall
    rw [hset]
    exact h.step (hharmless call hcall) hstep
  | raise i =>
    obtain ⟨call, hcall, hmap⟩ := Option.bind_eq_some_iff.mp happly
    obtain ⟨call', hraise, rfl⟩ := Option.map_eq_some_iff.mp hmap
    obtain ⟨node, calls⟩ := s
    obtain ⟨calls₁, calls₂, rfl, -, hset⟩ := getElem?_split hcall
    rw [hset]
    exact h.raise (hharmless call hcall) hraise
  | replacePool => exact h.abandon hharmless (.inl rfl) happly
  | closePool => exact h.abandon hharmless (.inr rfl) happly

/-- An event that leaves the pool healthy has been harmless. -/
theorem Accounts.harmless {s s' : State} {e : Event} (h : Accounts s)
    (happly : s.apply e = some s') (hhealthy : Healthy s') : Harmless s e := by
  cases e with
  | call function path => trivial
  | step i =>
    intro call hcall
    have hget : s.calls[i]? = some call := hcall
    simp only [State.apply, hget, Option.bind_some] at happly
    obtain ⟨⟨node', call'⟩, hstep, rfl⟩ := Option.map_eq_some_iff.mp happly
    obtain ⟨node, calls⟩ := s
    obtain ⟨calls₁, calls₂, rfl, -, hset⟩ := getElem?_split hget
    rw [hset] at hhealthy
    exact h.harmlessStep hstep hhealthy
  | raise i =>
    intro call hcall
    have hget : s.calls[i]? = some call := hcall
    simp only [State.apply, hget, Option.bind_some] at happly
    obtain ⟨call', hraise, rfl⟩ := Option.map_eq_some_iff.mp happly
    obtain ⟨calls₁, calls₂, hsplit, -, hset⟩ := getElem?_split hget
    rw [hset] at hhealthy
    exact harmlessRaise_of_healthy hraise hhealthy
  | replacePool => exact h.harmless_abandon (.inl rfl) happly hhealthy
  | closePool => exact h.harmless_abandon (.inr rfl) happly hhealthy

/-- The pool is healthy in every run of harmless events, and only as long as they are. -/
theorem pool_healthy_iff (maxConnections : ℕ) {s : State}
    (hrun : Run State.apply Harmless (init maxConnections) s) :
    Healthy s ∧ ∀ e s', s.apply e = some s' → (Healthy s' ↔ Harmless s e) := by
  have h : Accounts s := hrun.invariant (accounts_init maxConnections)
    fun _ _ _ h hharmless happly => h.apply hharmless happly
  refine ⟨h.toHealthy, fun e s' happly => ⟨h.harmless happly, fun hharmless => ?_⟩⟩
  exact (h.apply hharmless happly).toHealthy

/-- One call from its beginning to its end. -/
theorem oneCall_healthy :
    ∃ s, (Healthy s ∧ ∀ e s', s.apply e = some s' → (Healthy s' ↔ Harmless s e)) ∧
      (s.node.pool.queue == [0] && s.node.pool.created == 1) = true := by
  let events : List Event := .call .isInitialized single :: List.replicate 7 (.step 0)
  obtain ⟨s, hrun, hend⟩ := @Run.exists_of_runAll _ _ State.apply Harmless (init 5) _ events
    (fun s => s.node.pool.queue == [0] && s.node.pool.created == 1) (by decide +kernel)
  exact ⟨s, pool_healthy_iff 5 hrun, hend⟩

/-- Five edits at once: each has a connection, and waits for another one to write the
history with. -/
theorem editors_starve :
    ∃ s, Run State.apply (fun _ _ => True) (init 5) s ∧ Starved s ∧ ¬ Healthy s := by
  let path : List Op := [.code, .getConnection, .code] ++ single ++ [.code, .close, .code]
  let events : List Event :=
    (List.range 5).flatMap (fun i => .call .updateMessageText path :: List.replicate 4 (.step i)) ++
      (List.range 5).flatMap fun i => List.replicate 4 (.step i)
  obtain ⟨s, hrun, hstarved⟩ := @Run.exists_of_runAll _ _ State.apply (fun _ _ => True)
    (init 5) _ events (fun s => Starved s) (by decide +kernel)
  exact ⟨s, hrun, of_decide_eq_true hstarved, fun h => h.notStarved (of_decide_eq_true hstarved)⟩

end AnonyMus.P2p.ConnectionPool
