import AnonyMus.Lib.Dict
import AnonyMus.Lib.Interleave
import Mathlib.Data.Bool.Basic
import Mathlib.Data.Rat.Defs

/-!
# P2P node — the rate limiter and the event loop

`RateLimiterMiddleware` of `transports/p2p/app_v3.py`: requests on one event loop, which
gives a turn to another one where a coroutine awaits something that suspends. The lock is
one of threads. A request over the limit sends its 429 with the lock in its hands; all
others have given it back when they await the application.

* `call` — `__call__` up to its first `await`;
* `apply` — a new request, or the next turn of one that was suspended;
* `Apart` — no request has to be counted while a 429 is on its way;
* `Guarded` — the lock is held exactly while a 429 is on its way;
* `never_blocked_iff` — the loop goes on exactly as long as they are apart.
-/

namespace AnonyMus.P2p.RateLimiter

open Interleave

/-! ## The middleware -/

/-- What the middleware reads of an ASGI scope. -/
structure Scope where
  type   : String
  client : Option (String × ℕ)
  /-- `scope.get("path", "")`. -/
  path   : String

structure JsonResponse where
  statusCode : ℕ
  detail     : String
deriving DecidableEq

structure RateLimiterMiddleware where
  maxRequests : ℤ
  /-- `now - t < self.period`, of two readings of the clock. -/
  recent      : ℚ → ℚ → Bool

/-- The attributes that change. -/
structure Shared where
  requests : Dict String (List ℚ)
  /-- `self.lock` is held. -/
  locked   : Bool

/-- What a request awaits. -/
inductive Awaiting
  /-- `self.app(scope, receive, send)`. -/
  | app
  /-- `response(scope, receive, send)`, inside of `with self.lock`. -/
  | response (response : JsonResponse)
deriving DecidableEq

def Awaiting.holdsLock : Awaiting → Bool
  | app => false
  | response _ => true

def exempt : List String := ["/healthz", "/readyz", "/metrics"]

def tooManyRequests : JsonResponse := ⟨429, "Too many requests. Please try again later."⟩

/-- The request is counted, for which it needs the lock. -/
def Scope.counted (scope : Scope) : Bool := scope.type == "http" && !exempt.contains scope.path

/-- `__call__` up to its first `await`; none if it waits for the lock. -/
def call (m : RateLimiterMiddleware) (scope : Scope) (now : ℚ) (s : Shared) :
    Option (Awaiting × Shared) :=
  if scope.type ≠ "http" then some (.app, s)
  else
    let ip := match scope.client with
      | some client => client.1
      | none => "127.0.0.1"
    if exempt.contains scope.path then some (.app, s)
    else if s.locked then none
    else
      let timestamps := ((s.requests.get? ip).getD []).filter (m.recent now)
      if m.maxRequests ≤ timestamps.length then
        some (.response tooManyRequests, { s with locked := true })
      else
        -- the lock is given back before the application is awaited
        some (.app, { requests := s.requests.insert ip (timestamps ++ [now]), locked := false })

/-- What a request does when what it awaited has returned or raised: `with` gives the lock back. -/
def Awaiting.exit (awaiting : Awaiting) (s : Shared) : Shared :=
  if awaiting.holdsLock then { s with locked := false } else s

/-! ## The loop -/

/-- How the turn of a request ends. -/
inductive Outcome
  | suspends
  /-- What it awaits returns, or raises. -/
  | ends
deriving DecidableEq

structure Loop where
  shared  : Shared
  /-- The requests that are suspended. -/
  tasks   : List Awaiting
  /-- The thread waits for the lock, and with it the loop. -/
  blocked : Bool

def init : Loop := ⟨⟨Dict.empty, false⟩, [], false⟩

inductive Event
  | request (scope : Scope) (now : ℚ) (outcome : Outcome)
  | resume (i : ℕ) (outcome : Outcome)

/-- One turn of one request. -/
def apply (m : RateLimiterMiddleware) (s : Loop) (e : Event) : Option Loop :=
  if s.blocked then none
  else
    match e with
    | .request scope now outcome =>
      match call m scope now s.shared, outcome with
      | none, _ => some { s with blocked := true }
      | some (awaiting, shared), .suspends =>
        some { s with shared := shared, tasks := s.tasks ++ [awaiting] }
      | some (awaiting, shared), .ends => some { s with shared := awaiting.exit shared }
    | .resume i outcome =>
      match s.tasks[i]?, outcome with
      | none, _ => none
      | some _, .suspends => some s
      | some awaiting, .ends =>
        some { s with shared := awaiting.exit s.shared, tasks := s.tasks.eraseIdx i }

/-- Nothing can happen any more. -/
def BlockedForever (m : RateLimiterMiddleware) (s : Loop) : Prop := ∀ e, apply m s e = none

/-- The request tries to take the lock that a suspended one holds. -/
def Contends (s : Loop) : Event → Prop
  | .request scope _ _ => scope.counted = true ∧ s.shared.locked = true
  | .resume _ _ => False

/-- No request has to be counted while a 429 is on its way. -/
def Apart (s : Loop) : Event → Prop
  | .request scope _ _ => scope.counted = true → .response tooManyRequests ∉ s.tasks
  | .resume _ _ => True

instance (s : Loop) (e : Event) : Decidable (Apart s e) := by
  unfold Apart
  split <;> infer_instance

/-! ## The lock -/

section

variable {m : RateLimiterMiddleware} {scope : Scope} {now : ℚ} {s s' : Loop} {e : Event}

/-- A request waits for the lock, leaves it as it is, or holds it with its 429. -/
theorem call_cases (m : RateLimiterMiddleware) (scope : Scope) (now : ℚ) (s : Shared) :
    (call m scope now s = none ∧ scope.counted = true ∧ s.locked = true) ∨
    (∃ requests, call m scope now s = some (.app, ⟨requests, s.locked⟩) ∧
      (scope.counted = true → s.locked = false)) ∨
    (call m scope now s = some (.response tooManyRequests, ⟨s.requests, true⟩) ∧
      s.locked = false) := by
  unfold call Scope.counted
  by_cases htype : scope.type = "http"
  · rw [if_neg (not_not.mpr htype), htype]
    dsimp only
    cases exempt.contains scope.path with
    | true => exact .inr (.inl ⟨s.requests, rfl, by simp⟩)
    | false =>
    rw [if_neg Bool.false_ne_true]
    cases hlocked : s.locked with
    | true => exact .inl ⟨rfl, rfl, rfl⟩
    | false =>
    rw [if_neg Bool.false_ne_true]
    split_ifs
    · exact .inr (.inr ⟨rfl, rfl⟩)
    · exact .inr (.inl ⟨_, rfl, fun _ => rfl⟩)
  · rw [if_pos htype]
    exact .inr (.inl ⟨s.requests, rfl, by simp [htype]⟩)

/-- The lock is held exactly while one 429 is on its way, and whoever waits for it finds it held. -/
structure Guarded (s : Loop) : Prop where
  held     : s.tasks.countP Awaiting.holdsLock = s.shared.locked.toNat
  response : ∀ awaiting ∈ s.tasks, awaiting.holdsLock = true → awaiting = .response tooManyRequests

theorem guarded_init : Guarded init where
  held := rfl
  response := by simp [init]

theorem Guarded.held_iff (h : Guarded s) :
    s.shared.locked = true ↔ .response tooManyRequests ∈ s.tasks := by
  have hpos : 0 < s.tasks.countP Awaiting.holdsLock ↔ s.shared.locked = true := by
    rw [h.held]
    cases s.shared.locked <;> simp
  rw [← hpos, List.countP_pos_iff]
  constructor
  · rintro ⟨awaiting, hmem, hholds⟩
    rw [← h.response awaiting hmem hholds]
    exact hmem
  · intro hmem
    exact ⟨_, hmem, rfl⟩

/-- A request contends exactly if it is not apart. -/
theorem Guarded.contends_iff (h : Guarded s) : Contends s e ↔ ¬ Apart s e := by
  cases e with
  | request scope now outcome =>
    unfold Contends Apart
    rw [h.held_iff]
    tauto
  | resume i outcome => simp [Contends, Apart]

/-- What a turn can do: wait for the lock, which ends all turns; suspend or end for the first time;
suspend again; or end. -/
theorem apply_cases (happly : apply m s e = some s') :
    s.blocked = false ∧
    ((Contends s e ∧ s' = { s with blocked := true }) ∨
    ¬ Contends s e ∧ s'.blocked = false ∧
      ((∃ scope now awaiting shared, call m scope now s.shared = some (awaiting, shared) ∧
        (e = .request scope now .suspends ∧
            s' = { s with shared := shared, tasks := s.tasks ++ [awaiting] } ∨
          e = .request scope now .ends ∧ s' = { s with shared := awaiting.exit shared })) ∨
      s' = s ∨
      ∃ i awaiting, s.tasks[i]? = some awaiting ∧
        s' = { s with shared := awaiting.exit s.shared, tasks := s.tasks.eraseIdx i })) := by
  unfold apply at happly
  split_ifs at happly with hblocked
  replace hblocked : s.blocked = false := Bool.eq_false_of_not_eq_true hblocked
  refine ⟨hblocked, ?_⟩
  cases e with
  | request scope now outcome =>
    dsimp only at happly
    have hcases := call_cases m scope now s.shared
    rcases hcall : call m scope now s.shared with _ | ⟨awaiting, shared⟩
    · rw [hcall] at happly hcases
      left
      refine ⟨?_, (Option.some.inj happly).symm⟩
      rcases hcases with ⟨-, hcontends⟩ | ⟨_, h, -⟩ | ⟨h, -⟩
      · exact hcontends
      · cases h
      · cases h
    · right
      rw [hcall] at happly hcases
      -- a call that returns has not waited for the lock
      have hfree : ¬ Contends s (.request scope now outcome) := by
        rintro ⟨hcounted, hlocked⟩
        rcases hcases with ⟨h, -⟩ | ⟨_, -, h⟩ | ⟨-, h⟩
        · cases h
        · exact Bool.false_ne_true ((h hcounted).symm.trans hlocked)
        · exact Bool.false_ne_true (h.symm.trans hlocked)
      cases outcome with
      | suspends =>
        obtain rfl := Option.some.inj happly
        exact ⟨hfree, hblocked, .inl ⟨scope, now, awaiting, shared, hcall, .inl ⟨rfl, rfl⟩⟩⟩
      | ends =>
        obtain rfl := Option.some.inj happly
        exact ⟨hfree, hblocked, .inl ⟨scope, now, awaiting, shared, hcall, .inr ⟨rfl, rfl⟩⟩⟩
  | resume i outcome =>
    right
    dsimp only at happly
    rcases hget : s.tasks[i]? with _ | awaiting
    · rw [hget] at happly
      cases happly
    · rw [hget] at happly
      cases outcome with
      | suspends =>
        obtain rfl := Option.some.inj happly
        exact ⟨id, hblocked, .inr (.inl rfl)⟩
      | ends =>
        obtain rfl := Option.some.inj happly
        exact ⟨id, hblocked, .inr (.inr ⟨i, awaiting, hget, rfl⟩)⟩

theorem countP_eraseIdx {i : ℕ} {awaiting : Awaiting} (hget : s.tasks[i]? = some awaiting) :
    (s.tasks.eraseIdx i).countP Awaiting.holdsLock + awaiting.holdsLock.toNat =
      s.tasks.countP Awaiting.holdsLock := by
  obtain ⟨l₁, l₂, hsplit, herase, -⟩ := getElem?_split hget
  rw [herase, hsplit, List.countP_append, List.countP_append, List.countP_cons]
  cases awaiting.holdsLock
  · simp
  · simp
    omega

/-- Every turn keeps the lock in the hands of the one 429. -/
theorem Guarded.turn (h : Guarded s) (happly : apply m s e = some s') : Guarded s' := by
  obtain ⟨-, ⟨-, rfl⟩ | ⟨-, -, hturn⟩⟩ := apply_cases happly
  · exact ⟨h.held, h.response⟩
  rcases hturn with ⟨scope, now, awaiting, shared, hcall, hbegun⟩ | rfl | ⟨i, awaiting, hget, rfl⟩
  · rcases call_cases m scope now s.shared with
      ⟨hnone, -⟩ | ⟨requests, happ, -⟩ | ⟨hrejected, hfree⟩
    · cases hnone.symm.trans hcall
    · -- the application is awaited without the lock
      cases happ.symm.trans hcall
      rcases hbegun with ⟨-, rfl⟩ | ⟨-, rfl⟩
      · refine ⟨?_, fun awaiting hmem hholds => ?_⟩
        · rw [List.countP_append, h.held]
          rfl
        · rcases List.mem_append.mp hmem with hmem | hmem
          · exact h.response awaiting hmem hholds
          · rw [List.mem_singleton.mp hmem] at hholds
            cases hholds
      · exact ⟨h.held, h.response⟩
    · -- the 429 has the lock, which nobody had
      cases hrejected.symm.trans hcall
      have hnone : s.tasks.countP Awaiting.holdsLock = 0 := by
        rw [h.held, hfree]
        rfl
      rcases hbegun with ⟨-, rfl⟩ | ⟨-, rfl⟩
      · refine ⟨?_, fun awaiting hmem hholds => ?_⟩
        · rw [List.countP_append, hnone]
          rfl
        · rcases List.mem_append.mp hmem with hmem | hmem
          · exact h.response awaiting hmem hholds
          · exact List.mem_singleton.mp hmem
      · exact ⟨hnone, h.response⟩
  · exact h
  · have hcount := countP_eraseIdx hget
    refine ⟨?_, fun awaiting hmem => h.response awaiting (List.mem_of_mem_eraseIdx hmem)⟩
    rw [h.held] at hcount
    unfold Awaiting.exit
    cases hholds : awaiting.holdsLock with
    | true =>
      -- the one 429 has ended
      rw [hholds] at hcount
      rw [if_pos rfl]
      have hone := Bool.toNat_le s.shared.locked
      rw [Bool.toNat_true] at hcount
      show (s.tasks.eraseIdx i).countP Awaiting.holdsLock = 0
      omega
    | false =>
      rw [hholds] at hcount
      rw [if_neg Bool.false_ne_true]
      exact hcount

end

/-! ## The loop goes on -/

/-- A loop that is not blocked takes the next request, whatever else it does. -/
theorem blockedForever_iff (m : RateLimiterMiddleware) (s : Loop) :
    BlockedForever m s ↔ s.blocked = true := by
  constructor
  · intro hnone
    by_contra hfree
    -- a request that is not counted
    have hlifespan := hnone (.request ⟨"lifespan", none, ""⟩ 0 .ends)
    unfold apply at hlifespan
    rw [if_neg hfree] at hlifespan
    cases hlifespan
  · intro hblocked e
    unfold apply
    rw [if_pos hblocked]

/-- No request waits for the lock if they are apart, and one does if they are not. -/
theorem Guarded.blocked_iff {m : RateLimiterMiddleware} {s s' : Loop} {e : Event} (h : Guarded s)
    (happly : apply m s e = some s') : s'.blocked = true ↔ ¬ Apart s e := by
  rw [← h.contends_iff]
  obtain ⟨-, ⟨hcontends, rfl⟩ | ⟨hfree, hgoes, -⟩⟩ := apply_cases happly
  · exact iff_of_true rfl hcontends
  · exact iff_of_false (by rw [hgoes]; exact Bool.false_ne_true) hfree

/-- As long as no request has to be counted while a 429 is on its way, none waits for the lock and
the loop goes on; the first one that has to be counted then blocks it forever. -/
theorem never_blocked_iff (m : RateLimiterMiddleware) {s : Loop}
    (hrun : Run (apply m) Apart init s) :
    ¬ BlockedForever m s ∧ ∀ e s', apply m s e = some s' →
      (¬ Contends s e ∧ ¬ BlockedForever m s' ↔ Apart s e) := by
  have hinv : Guarded s ∧ s.blocked = false := by
    refine hrun.invariant (I := fun s => Guarded s ∧ s.blocked = false) ⟨guarded_init, rfl⟩ ?_
    rintro s e s' ⟨h, -⟩ hapart happly
    refine ⟨h.turn happly, Bool.eq_false_of_not_eq_true fun hblocked => ?_⟩
    exact (h.blocked_iff happly).mp hblocked hapart
  obtain ⟨h, hfree⟩ := hinv
  refine ⟨?_, fun e s' happly => ?_⟩
  · rw [blockedForever_iff, hfree]
    exact Bool.false_ne_true
  · rw [h.contends_iff, blockedForever_iff, h.blocked_iff happly]
    tauto

/-- As the application adds it. -/
def limiter : RateLimiterMiddleware := ⟨120, fun now t => now - t < 60⟩

def fromClient (path : String) : Scope := ⟨"http", some ("10.0.0.7", 50000), path⟩

/-- As many requests as are allowed. -/
def allowed (n : ℕ) : List Event := List.replicate n (.request (fromClient "/v3/node") 0 .ends)

/-- A 429 on its way, and a request that is not counted. -/
theorem never_blocked_metrics :
    ∃ s, (¬ BlockedForever limiter s ∧ ∀ e s', apply limiter s e = some s' →
      (¬ Contends s e ∧ ¬ BlockedForever limiter s' ↔ Apart s e)) ∧
      (s.tasks == [.response tooManyRequests, .app]) = true := by
  obtain ⟨s, hrun, hend⟩ := @Run.exists_of_runAll _ _ (apply limiter) Apart init _
    (allowed 120 ++ [.request (fromClient "/v3/node") 1 .suspends,
      .request (fromClient "/metrics") 1 .suspends])
    (fun s => s.tasks == [.response tooManyRequests, .app]) (by decide +kernel)
  exact ⟨s, never_blocked_iff limiter hrun, hend⟩

/-- One client is told to slow down, and while it has not read that, another one asks. -/
theorem second_client_blocks :
    ∃ s, Run (apply limiter) (fun _ _ => True) init s ∧ BlockedForever limiter s := by
  obtain ⟨s, hrun, hend⟩ := @Run.exists_of_runAll _ _ (apply limiter) (fun _ _ => True) init _
    (allowed 120 ++ [.request (fromClient "/v3/node") 1 .suspends,
      .request ⟨"http", some ("10.0.0.8", 50001), "/v3/auth/login"⟩ 2 .ends])
    (fun s => s.blocked) (by decide +kernel)
  exact ⟨s, hrun, (blockedForever_iff limiter s).mpr hend⟩

end AnonyMus.P2p.RateLimiter
