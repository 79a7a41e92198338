import AnonyMus.Python.PrekeyPool

/-!
# Refills of the prekey pool

`schedule_refill_if_low` of `core/prekey_pool.py` keeps one task in one variable for
all onion addresses, and does nothing while that task is not done.

* `InFlight` — a refill of an address has its second block before it;
* `Served` — a call that has found a pool low leaves a refill of it in flight, and a
  refill that has made all its pairs leaves a full batch;
* `Unhindered` — no other task is in the way, and no pair was taken in the meantime;
* `Workers` — which commands a refill is made of, and which task is not done;
* `served_iff`, `lowPools_refilled` — in every reachable state the second is what the
  first takes;
* `otherTask_starves` — a task for one address stands in the way of another.
-/

namespace AnonyMus.Python.PrekeyPool

open Interleave

variable {K : Type}

/-- The fill that a command is a part of: its address and its target. -/
def Command.fill? : Command K → Option (String × ℤ)
  | measure onion targetSize => some (onion, targetSize)
  | generate fill _ _ | extend fill _ => some (fill.onion, fill.targetSize)
  | _ => none

def Command.isFinish : Command K → Bool
  | finish => true
  | _ => false

section

variable (cfg : Settings)

/-- A refill of `onion` has its second block before it. -/
def InFlight (sys : System K) (onion : String) : Prop :=
  ∃ call ∈ sys.threads, call.loc.isRefill = true ∧
    ∃ c ∈ call.todo, c.fill? = some (onion, cfg.refillBatch)

/-- Some refill task of the event loop is not done. -/
def TaskInFlight (sys : System K) : Prop :=
  ∃ call ∈ sys.threads, call.loc = .refillTask ∧ call.todo ≠ []

/-- What is asked of a command that has led to the system `sys'`: the block under `_REFILL_LOCK`
leaves a refill in flight, and a refill without errors leaves its batch. -/
def Serves (sys' : System K) (worker : Worker) : Command K → Prop
  | .schedule onion => InFlight cfg sys' onion
  | .extend fill added => worker.isRefill = true → added.length = fill.deficit →
      cfg.refillBatch ≤ (sys'.store.keys fill.onion).length
  | _ => True

/-- No task is in the way of a refill, unless this onion is refilled anyhow; and a refill finds as
many pairs as it has measured, or a full batch. -/
def Clear (sys : System K) (worker : Worker) : Command K → Prop
  | .schedule onion => TaskInFlight sys → InFlight cfg sys onion
  | .extend fill added => worker.isRefill = true → added.length = fill.deficit →
      min (fill.measured : ℤ) cfg.refillBatch ≤ (sys.store.keys fill.onion).length
  | _ => True

/-- What call `i` is about to run, and who runs it. -/
def System.running (sys : System K) (i : ℕ) : Option (Worker × Command K) :=
  sys.threads[i]?.bind fun t => t.todo.head?.map (t.loc, ·)

def Served (sys : System K) (e : Event) (sys' : System K) : Prop :=
  match e with
  | .call _ _ => True
  | .run i _ => ∀ w ∈ sys.running i, Serves cfg sys' w.1 w.2

def Unhindered (sys : System K) : Event → Prop
  | .call _ _ => True
  | .run i _ => ∀ w ∈ sys.running i, Clear cfg sys w.1 w.2

end

section

variable {cfg : Settings} {gen : ℕ → K} {sys sys' : System K}

/-! ## The workers -/

/-- The workers of a reachable system. A refill is part of one fill, and a task ends with its
return to the event loop; at most one task has not returned. -/
structure Workers (cfg : Settings) (sys : System K) : Prop where
  refilling : ∀ call ∈ sys.threads, call.loc.isRefill = true → ∀ c ∈ call.todo,
    c.isFinish = true ∨ ∃ onion, c.fill? = some (onion, cfg.refillBatch)
  finishing : ∀ call ∈ sys.threads, call.loc = .refillTask → call.todo ≠ [] →
    ∃ l, call.todo = l ++ [.finish]
  tasks : ∀ call ∈ sys.threads, ∀ c ∈ call.todo, c.isFinish = true → call.loc = .refillTask
  single : (pending sys.threads).countP Command.isFinish =
    if sys.store.refillTask = some false then 1 else 0

/-- A command of a fill leads to commands of that fill, or to none. -/
theorem fill_exec {worker : Worker} {fail : Bool} {command : Command K} {s : Store K}
    {x : String × ℤ} (h : command.fill? = some x) :
    ∀ c ∈ (exec cfg gen worker fail command s).2, c.fill? = some x := by
  intro c hc
  cases command with
  | measure onion targetSize =>
    obtain rfl := List.mem_singleton.mp hc
    exact h
  | generate fill left added =>
    cases left with
    | zero =>
      obtain rfl := List.mem_singleton.mp hc
      exact h
    | succ left =>
      cases fail with
      | true =>
        obtain rfl := List.mem_singleton.mp hc
        exact h
      | false =>
        obtain rfl := List.mem_singleton.mp hc
        exact h
  | extend fill added => cases hc
  | _ => cases h

/-- No command leads to the return to the event loop. -/
theorem isFinish_exec {worker : Worker} {fail : Bool} {command : Command K} {s : Store K} :
    ∀ c ∈ (exec cfg gen worker fail command s).2, c.isFinish = false := by
  intro c hc
  cases command with
  | generate fill left added =>
    cases left <;> cases fail <;> simp [exec] at hc <;> subst hc <;> rfl
  | take onion =>
    simp only [exec] at hc
    split at hc
    · cases hc
    · split at hc
      · obtain rfl := List.mem_singleton.mp hc
        rfl
      · cases hc
  | checkSize onion =>
    simp only [exec] at hc
    split at hc
    · cases hc
    · obtain rfl := List.mem_singleton.mp hc
      rfl
  | schedule onion =>
    simp only [exec] at hc
    split at hc <;> cases hc
  | measure onion targetSize =>
    obtain rfl := List.mem_singleton.mp hc
    rfl
  | _ => cases hc

/-- The block under `_REFILL_LOCK`. -/
theorem exec_schedule (worker : Worker) (fail : Bool) (onion : String) (s : Store K) :
    exec cfg gen worker fail (.schedule onion) s =
      if s.refillTask = some false then (s, [])
      else if worker = .loop then
        ({ s with refillTask := some false }.start ⟨.refillTask, [refill cfg onion, .finish]⟩, [])
      else (s.start ⟨.refillThread, [refill cfg onion]⟩, []) := by
  rcases htask : s.refillTask with _ | _ | _ <;> cases worker <;> simp [exec, htask]

/-- The variable `_REFILL_TASK` and the refill that starts, if any. -/
theorem exec_task (worker : Worker) (fail : Bool) (command : Command K) (s : Store K) :
    let out := (exec cfg gen worker fail command s.rest).1
    (command.isFinish = false ∧ out.refillTask = s.refillTask ∧
        (out.started = [] ∨ ∃ onion, out.started = [⟨.refillThread, [refill cfg onion]⟩])) ∨
      (command.isFinish = false ∧ s.refillTask ≠ some false ∧ out.refillTask = some false ∧
        ∃ onion, out.started = [⟨.refillTask, [refill cfg onion, .finish]⟩]) ∨
      command.isFinish = true ∧ out.refillTask = some true ∧ out.started = [] := by
  cases command with
  | generate fill left added =>
    left
    cases left <;> cases fail <;> exact ⟨rfl, rfl, .inl rfl⟩
  | extend fill added =>
    left
    simp only [exec]
    split <;> exact ⟨rfl, rfl, .inl rfl⟩
  | take onion =>
    left
    simp only [exec]
    split <;> exact ⟨rfl, rfl, .inl rfl⟩
  | schedule onion =>
    rw [exec_schedule]
    split_ifs with htask
    · exact .inl ⟨rfl, rfl, .inl rfl⟩
    · exact .inr (.inl ⟨rfl, htask, rfl, onion, rfl⟩)
    · exact .inl ⟨rfl, rfl, .inr ⟨onion, rfl⟩⟩
  | finish => exact .inr (.inr ⟨rfl, rfl, rfl⟩)
  | _ => exact .inl ⟨rfl, rfl, .inl rfl⟩

theorem workers_call {inLoop : Bool} {request : Request} (h : Workers cfg sys)
    (happly : apply cfg gen sys (.call inLoop request) = some sys') : Workers cfg sys' := by
  obtain rfl := Option.some.inj happly
  have hnew : ∀ c ∈ request.commands (K := K) cfg, c.isFinish = false := by
    intro c hc
    obtain ⟨_, _, rfl⟩ | ⟨_, rfl | rfl | rfl⟩ := commands_cases hc <;> rfl
  constructor
  case refilling =>
    -- a call of the application is no refill
    refine List.forall_mem_append.mpr ⟨h.refilling, List.forall_mem_singleton.mpr fun hrefill => ?_⟩
    cases inLoop <;> cases hrefill
  case finishing =>
    refine List.forall_mem_append.mpr ⟨h.finishing, List.forall_mem_singleton.mpr fun htask => ?_⟩
    cases inLoop <;> cases htask
  case tasks =>
    refine List.forall_mem_append.mpr ⟨h.tasks, List.forall_mem_singleton.mpr ?_⟩
    intro c hc hfinish
    rw [hnew c hc] at hfinish
    cases hfinish
  case single =>
    have hnone : (request.commands (K := K) cfg).countP Command.isFinish = 0 :=
      List.countP_eq_zero.mpr fun c hc => by simp [hnew c hc]
    rw [pending_append, List.countP_append, h.single]
    simp [hnone]

section

variable {i : ℕ} {fail : Bool}

/-- What a command starts is a refill. -/
theorem started_cases {worker : Worker} {command : Command K} {s : Store K} :
    ∀ call ∈ (exec cfg gen worker fail command s.rest).1.started,
      (∃ onion, call = ⟨.refillThread, [refill cfg onion]⟩) ∨
        ∃ onion, call = ⟨.refillTask, [refill cfg onion, .finish]⟩ := by
  intro call hcall
  rcases @exec_task _ cfg gen worker fail command s with
    ⟨-, -, hnone | ⟨onion, hsome⟩⟩ | ⟨-, -, -, onion, hsome⟩ | ⟨-, -, hnone⟩
  · rw [hnone] at hcall
    cases hcall
  · rw [hsome] at hcall
    exact .inl ⟨onion, List.mem_singleton.mp hcall⟩
  · rw [hsome] at hcall
    exact .inr ⟨onion, List.mem_singleton.mp hcall⟩
  · rw [hnone] at hcall
    cases hcall

/-- One call goes on, the others stay as they are, and a refill may start. -/
theorem apply_run_calls (happly : apply cfg gen sys (.run i fail) = some sys') :
    ∃ worker command rest, ⟨worker, command :: rest⟩ ∈ sys.threads ∧
      ∀ call ∈ sys'.threads, call ∈ sys.threads ∨
        call = ⟨worker, (exec cfg gen worker fail command sys.store.rest).2 ++ rest⟩ ∨
          (∃ onion, call = ⟨.refillThread, [refill cfg onion]⟩) ∨
            ∃ onion, call = ⟨.refillTask, [refill cfg onion, .finish]⟩ := by
  obtain ⟨l₁, worker, command, rest, l₂, -, hsplit, hstore, hthreads⟩ := apply_run_split happly
  refine ⟨worker, command, rest, ?_, ?_⟩
  · rw [hsplit]
    exact List.mem_append_right _ List.mem_cons_self
  · intro call hcall
    rw [hthreads, hstore] at hcall
    rcases List.mem_append.mp hcall with hkept | hnew
    · rw [hsplit]
      simp only [List.mem_append, List.mem_cons] at hkept ⊢
      tauto
    · exact .inr (.inr (started_cases call hnew))

/-- The returns that are pending, before and after: as before, one more, or one less. -/
theorem single_run (h : Workers cfg sys)
    (happly : apply cfg gen sys (.run i fail) = some sys') :
    (pending sys'.threads).countP Command.isFinish =
      if sys'.store.refillTask = some false then 1 else 0 := by
  obtain ⟨l₁, worker, command, rest, l₂, -, hsplit, hstore, hthreads⟩ := apply_run_split happly
  have htask := @exec_task _ cfg gen worker fail command sys.store
  rw [← hstore] at htask
  have hmoved := countP_pending_step l₁ l₂ worker command
    (exec cfg gen worker fail command sys.store.rest).2 rest Command.isFinish
  have hnext : (exec cfg gen worker fail command sys.store.rest).2.countP Command.isFinish = 0 :=
    List.countP_eq_zero.mpr fun c hc => by simp [isFinish_exec c hc]
  have hsingle := h.single
  rw [← hsplit, hnext] at hmoved
  rw [hthreads, pending_append, List.countP_append]
  rcases htask with ⟨hc, heq, hnone | ⟨onion, hsome⟩⟩ | ⟨hc, hnot, heq, onion, hsome⟩ |
    ⟨hc, heq, hnone⟩
  · have hfinish : [command].countP Command.isFinish = 0 := by simp [hc]
    rw [hnone, heq]
    simp only [pending_nil, List.countP_nil]
    omega
  · have hfinish : [command].countP Command.isFinish = 0 := by simp [hc]
    rw [hsome, heq]
    have hrefill : (pending [⟨Worker.refillThread, [refill (K := K) cfg onion]⟩]).countP
      Command.isFinish = 0 := rfl
    omega
  · have hfinish : [command].countP Command.isFinish = 0 := by simp [hc]
    rw [if_neg hnot] at hsingle
    rw [hsome, heq, if_pos rfl]
    have hrefill : (pending [⟨Worker.refillTask, [refill (K := K) cfg onion, .finish]⟩]).countP
      Command.isFinish = 1 := rfl
    omega
  · have hfinish : [command].countP Command.isFinish = 1 := by simp [hc]
    rw [hnone, heq, if_neg (by simp)]
    simp only [pending_nil, List.countP_nil]
    split at hsingle <;> omega

theorem workers_run (h : Workers cfg sys)
    (happly : apply cfg gen sys (.run i fail) = some sys') : Workers cfg sys' := by
  obtain ⟨worker, command, rest, hself, hcalls⟩ := apply_run_calls happly
  constructor
  case single => exact single_run h happly
  case refilling =>
    intro call hcall hrefill c hc
    rcases hcalls call hcall with hold | rfl | ⟨onion, rfl⟩ | ⟨onion, rfl⟩
    · exact h.refilling call hold hrefill c hc
    · -- what takes the place of a command of the fill is of that fill
      rcases List.mem_append.mp hc with hnext | hrest
      · rcases h.refilling _ hself hrefill command List.mem_cons_self with hfinish | ⟨onion, hfill⟩
        · cases command <;> cases hfinish
          cases hnext
        · exact .inr ⟨onion, fill_exec hfill c hnext⟩
      · exact h.refilling _ hself hrefill c (List.mem_cons_of_mem _ hrest)
    · obtain rfl := List.mem_singleton.mp hc
      exact .inr ⟨onion, rfl⟩
    · rcases List.mem_cons.mp hc with rfl | hc
      · exact .inr ⟨onion, rfl⟩
      · obtain rfl := List.mem_singleton.mp hc
        exact .inl rfl
  case finishing =>
    intro call hcall hloc htodo
    rcases hcalls call hcall with hold | rfl | ⟨onion, rfl⟩ | ⟨onion, rfl⟩
    · exact h.finishing call hold hloc htodo
    · obtain ⟨l, hl⟩ := h.finishing _ hself hloc (List.cons_ne_nil _ _)
      cases l with
      | nil =>
        -- the return itself, after which nothing is left
        obtain ⟨rfl, rfl⟩ := List.cons.inj hl
        exact absurd rfl htodo
      | cons c l =>
        obtain ⟨-, rfl⟩ := List.cons.inj hl
        exact ⟨_, (List.append_assoc ..).symm⟩
    · cases hloc
    · exact ⟨[refill cfg onion], rfl⟩
  case tasks =>
    intro call hcall c hc hfinish
    rcases hcalls call hcall with hold | rfl | ⟨onion, rfl⟩ | ⟨onion, rfl⟩
    · exact h.tasks call hold c hc hfinish
    · rcases List.mem_append.mp hc with hnext | hrest
      · rw [isFinish_exec c hnext] at hfinish
        cases hfinish
      · exact h.tasks ⟨worker, command :: rest⟩ hself c (List.mem_cons_of_mem _ hrest) hfinish
    · obtain rfl := List.mem_singleton.mp hc
      cases hfinish
    · rfl

end

theorem workers_apply (e : Event) (h : Workers cfg sys) (happly : apply cfg gen sys e = some sys') :
    Workers cfg sys' := by
  cases e with
  | call inLoop request => exact workers_call h happly
  | run i fail => exact workers_run h happly

theorem workers_init : Workers (K := K) cfg System.init where
  refilling := by intro call hcall; cases hcall
  finishing := by intro call hcall; cases hcall
  tasks     := by intro call hcall; cases hcall
  single    := rfl

/-- `_REFILL_TASK` is not done as long as some task is not. -/
theorem Workers.taskInFlight_iff (h : Workers cfg sys) :
    TaskInFlight sys ↔ sys.store.refillTask = some false := by
  constructor
  · -- the return of the task is pending, so the variable is not done
    rintro ⟨call, hcall, hloc, htodo⟩
    obtain ⟨l, hl⟩ := h.finishing call hcall hloc htodo
    by_contra hdone
    have hsingle := h.single
    rw [if_neg hdone, List.countP_eq_zero] at hsingle
    refine hsingle .finish (List.mem_flatMap.mpr ⟨call, hcall, ?_⟩) rfl
    rw [hl]
    exact List.mem_append_right _ List.mem_cons_self
  · intro htask
    have hsingle := h.single
    rw [if_pos htask] at hsingle
    obtain ⟨c, hc, hfinish⟩ := List.countP_pos_iff.mp (by rw [hsingle]; exact Nat.one_pos)
    obtain ⟨call, hcall, hc⟩ := List.mem_flatMap.mp hc
    exact ⟨call, hcall, h.tasks call hcall c hc hfinish, List.ne_nil_of_mem hc⟩

/-! ## What it takes -/

/-- The block under `_REFILL_LOCK` leaves a refill in flight if and only if no task is in the way. -/
theorem inFlight_schedule_iff {i : ℕ} {fail : Bool} {worker : Worker} {onion : String}
    (h : Workers cfg sys) (happly : apply cfg gen sys (.run i fail) = some sys')
    (hrunning : sys.running i = some (worker, .schedule onion)) :
    InFlight cfg sys' onion ↔ (TaskInFlight sys → InFlight cfg sys onion) := by
  obtain ⟨l₁, worker', command, rest, l₂, hget, hsplit, hstore, hthreads⟩ :=
    apply_run_split happly
  obtain ⟨rfl, rfl⟩ : worker' = worker ∧ command = .schedule onion := by
    simpa [System.running, hget] using hrunning
  rw [h.taskInFlight_iff]
  have hnext : (exec cfg gen worker' fail (.schedule onion) sys.store.rest).2 = [] := by
    rw [exec_schedule]
    split_ifs <;> rfl
  rw [hnext, List.nil_append] at hthreads
  by_cases htask : sys.store.refillTask = some false
  · -- nothing starts
    have hstarted : sys'.store.started = [] := by
      rw [hstore, exec_schedule, if_pos (show sys.store.rest.refillTask = some false from htask)]
      rfl
    rw [imp_iff_right htask]
    rw [hstarted, List.append_nil] at hthreads
    have hself : (∃ c ∈ .schedule onion :: rest, c.fill? = some (onion, cfg.refillBatch)) ↔
        ∃ c ∈ rest, c.fill? = some (onion, cfg.refillBatch) := by
      simp [Command.fill?]
    unfold InFlight
    rw [hthreads, hsplit]
    simp only [List.mem_append, List.mem_cons, or_and_right, exists_or, exists_eq_left] at hself ⊢
    rw [hself]
  · -- the refill that starts is in flight
    refine iff_of_true ?_ fun h => absurd h htask
    have hstarted : ∃ call ∈ sys'.store.started, call.loc.isRefill = true ∧
        refill cfg onion ∈ call.todo := by
      rw [hstore, exec_schedule, if_neg (show ¬ sys.store.rest.refillTask = some false from htask)]
      split_ifs
      · exact ⟨_, List.mem_cons_self, rfl, List.mem_cons_self⟩
      · exact ⟨_, List.mem_cons_self, rfl, List.mem_cons_self⟩
    obtain ⟨call, hcall, hrefill, hc⟩ := hstarted
    refine ⟨call, ?_, hrefill, _, hc, rfl⟩
    rw [hthreads]
    exact List.mem_append_right _ hcall

/-- A refill that has made all its pairs leaves a full batch if and only if the pool still has as
many pairs as it had, or a batch. -/
theorem batch_extend_iff {i : ℕ} {fail : Bool} {worker : Worker} {fill : Fill} {added : List K}
    (h : Workers cfg sys) (happly : apply cfg gen sys (.run i fail) = some sys')
    (hrunning : sys.running i = some (worker, .extend fill added))
    (hrefill : worker.isRefill = true) (hall : added.length = fill.deficit) :
    cfg.refillBatch ≤ (sys'.store.keys fill.onion).length ↔
      min (fill.measured : ℤ) cfg.refillBatch ≤ (sys.store.keys fill.onion).length := by
  obtain ⟨l₁, worker', command, rest, l₂, hget, hsplit, hstore, -⟩ := apply_run_split happly
  obtain ⟨rfl, rfl⟩ : worker' = worker ∧ command = .extend fill added := by
    simpa [System.running, hget] using hrunning
  -- a refill aims at the batch
  have htarget : fill.targetSize = cfg.refillBatch := by
    rcases h.refilling ⟨worker', .extend fill added :: rest⟩ (List.mem_of_getElem? hget) hrefill _
      List.mem_cons_self with hfinish | ⟨onion, hfill⟩
    · cases hfinish
    · exact (Prod.mk.inj (Option.some.inj hfill)).2
  have hkeys : (sys'.store.keys fill.onion).length =
      (sys.store.keys fill.onion).length + added.length := by
    rw [hstore]
    simp only [exec]
    split
    · subst added
      rfl
    · rw [Store.keys_put, if_pos rfl, List.length_append, Store.keys_rest]
  rw [hkeys, hall, Fill.deficit, htarget]
  omega

/-- In every reachable state, and for every step, the step does what is asked of it if and only if
it is unhindered. -/
theorem served_iff (hrun : Run (apply cfg gen) (fun _ _ => True) System.init sys) (e : Event)
    (happly : apply cfg gen sys e = some sys') : Served cfg sys e sys' ↔ Unhindered cfg sys e := by
  have hworkers : Workers cfg sys :=
    hrun.invariant workers_init fun s e s' h _ => workers_apply e h
  cases e with
  | call inLoop request => exact Iff.rfl
  | run i fail =>
    refine forall₂_congr fun w hw => ?_
    obtain ⟨worker, command⟩ := w
    cases command with
    | schedule onion => exact inFlight_schedule_iff hworkers happly hw
    | extend fill added =>
      refine forall₂_congr fun hrefill hall => ?_
      exact batch_extend_iff hworkers happly hw hrefill hall
    | _ => exact Iff.rfl

/-- The runs in which low pools are refilled are the unhindered ones. -/
theorem lowPools_refilled (cfg : Settings) (gen : ℕ → K) (sys : System K) :
    Run (apply cfg gen) (fun sys e => ∀ sys', apply cfg gen sys e = some sys' → Served cfg sys e sys')
        System.init sys ↔
      Run (apply cfg gen) (Unhindered cfg) System.init sys := by
  constructor
  · intro hrun
    -- induction on the run; the state before each step is reachable without the condition
    induction hrun with
    | start => exact .start
    | next e hrun hok happly ih =>
      refine .next e ih ?_ happly
      exact (served_iff (hrun.mono fun _ _ _ => trivial) e happly).mp (hok _ happly)
  · intro hrun
    induction hrun with
    | start => exact .start
    | next e hrun hok happly ih =>
      refine .next e ih (fun sys' happly' => ?_) happly
      exact (served_iff (hrun.mono fun _ _ _ => trivial) e happly').mpr hok

end

/-! ## Two onion addresses, and a take in the middle of a refill -/

instance (cfg : Settings) (sys : System K) (onion : String) : Decidable (InFlight cfg sys onion) :=
  inferInstanceAs (Decidable (∃ call ∈ sys.threads, call.loc.isRefill = true ∧
    ∃ c ∈ call.todo, c.fill? = some (onion, cfg.refillBatch)))

/-- A task refills the pool of one address when the pool of another one is found low. -/
def twoOnions : List Event :=
  [.call true (.scheduleRefillIfLow "a.onion"), .run 0 false, .run 0 false,
   .call true (.scheduleRefillIfLow "b.onion"), .run 2 false]

/-- A pool of one pair is refilled to two, and the pair is taken in the meantime. -/
def takeWithinRefill : List Event :=
  [.call false (.fillPool "o.onion" (some 1)), .run 0 false, .run 0 false, .run 0 false, .run 0 false,
   .call false (.scheduleRefillIfLow "o.onion"), .run 1 false, .run 1 false, .run 2 false,
   .call false (.takeOneTimePrekey "o.onion"), .run 3 false, .run 2 false, .run 2 false]

/-- No refill of the second address is in flight afterwards, and the refill ends with one pair. -/
theorem otherTask_starves :
    (∃ sys sys' : System ℕ, Run (apply .default id) (fun _ _ => True) System.init sys ∧
      apply .default id sys (.run 2 false) = some sys' ∧
      ¬ Served .default sys (.run 2 false) sys') ∧
    ∃ sys sys' : System ℕ, Run (apply ⟨1, 2, 2⟩ id) (fun _ _ => True) System.init sys ∧
      apply ⟨1, 2, 2⟩ id sys (.run 2 false) = some sys' ∧
      ¬ Served ⟨1, 2, 2⟩ sys (.run 2 false) sys' := by
  constructor
  · obtain ⟨sys, hrun, hends⟩ := @Run.exists_of_runAll _ _ (apply .default (id : ℕ → ℕ))
      (fun _ _ => True) System.init _ twoOnions
      (fun sys => sys.running 2 = some (.loop, .schedule "b.onion") ∧
        (apply .default id sys (.run 2 false)).any fun sys' => ¬ InFlight .default sys' "b.onion")
      (by decide +kernel)
    obtain ⟨hrunning, hafter⟩ := of_decide_eq_true hends
    obtain ⟨sys', happly, hnone⟩ := (Option.any_eq_true _ _).mp hafter
    exact ⟨sys, sys', hrun, happly, fun hserved =>
      of_decide_eq_true hnone (hserved _ hrunning)⟩
  · obtain ⟨sys, hrun, hends⟩ := @Run.exists_of_runAll _ _ (apply ⟨1, 2, 2⟩ (id : ℕ → ℕ))
      (fun _ _ => True) System.init _ takeWithinRefill
      (fun sys => sys.running 2 = some (.refillThread, .extend ⟨"o.onion", 2, 1⟩ [1]) ∧
        (apply ⟨1, 2, 2⟩ id sys (.run 2 false)).any fun sys' =>
          (sys'.store.keys "o.onion").length = 1) (by decide +kernel)
    obtain ⟨hrunning, hafter⟩ := of_decide_eq_true hends
    obtain ⟨sys', happly, hone⟩ := (Option.any_eq_true _ _).mp hafter
    refine ⟨sys, sys', hrun, happly, fun hserved => ?_⟩
    have hbatch := hserved _ hrunning rfl rfl
    rw [of_decide_eq_true hone] at hbatch
    exact absurd hbatch (by decide)

end AnonyMus.Python.PrekeyPool
