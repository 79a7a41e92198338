import AnonyMus.Lib.Dict
import AnonyMus.Lib.Interleave
import Mathlib.Data.List.Nodup

/-!
# Prekey pool

`core/prekey_pool.py`: the key pairs that each onion address has in memory, filled
and emptied by any number of threads. What a thread does under a lock is one
command, and so is the generation of a key pair. Refills run in threads of their
own, as a task of the event loop or without one.

* `exec` — one command of a call;
* `System`, `apply` — the calls under way, and the refills they start;
* `Unique`, `WithinTarget`, `StaysDrained` — what the pool is to keep to;
* `Undisturbed` — a fill that still owes key pairs leaves room for the next one, and
  no drain overtakes it;
* `pool_kept` — no pair is returned twice in any run, and the other two hold in the
  runs whose fills are undisturbed;
* `disturbed_fills` — runs whose fills are not.
-/

namespace AnonyMus.Python.PrekeyPool

open Interleave

variable {K : Type}

/-! ## The pool -/

/-- What the environment sets. -/
structure Settings where
  poolSize     : ℤ
  lowWatermark : ℤ
  refillBatch  : ℤ

def Settings.default : Settings := ⟨100, 20, 40⟩

/-- What a locked block has done, for the proofs. -/
inductive Block (K : Type)
  | measured (onion : String) (targetSize : ℤ)
  | took (onion : String) (pair : K)
  | drained (onion : String) (pairs : List K)
deriving DecidableEq

/-- A call of `fill_pool` that has seen the size of the pool. -/
structure Fill where
  onion      : String
  targetSize : ℤ
  measured   : ℕ
deriving DecidableEq

/-- `max(0, target_size - len(current))`. -/
def Fill.deficit (fill : Fill) : ℕ := (fill.targetSize - fill.measured).toNat

inductive Command (K : Type)
  /-- The first locked block of `fill_pool`. -/
  | measure (onion : String) (targetSize : ℤ)
  /-- The turns of its loop that are left. -/
  | generate (fill : Fill) (left : ℕ) (added : List K)
  /-- Its second locked block. -/
  | extend (fill : Fill) (added : List K)
  | take (onion : String)
  /-- `pool_size_for` in `schedule_refill_if_low`. -/
  | checkSize (onion : String)
  /-- The block under `_REFILL_LOCK`. -/
  | schedule (onion : String)
  | drain (onion : String)
  /-- The event loop resumes `_async_refill`, which returns. -/
  | finish
deriving DecidableEq

/-- Who runs a call. -/
inductive Worker
  /-- A thread with a running event loop, and one without. -/
  | loop
  | plain
  /-- `_REFILL_TASK` with its worker thread, and a thread `prekey-refill-…`. -/
  | refillTask
  | refillThread
deriving DecidableEq

def Worker.isRefill : Worker → Bool
  | loop | plain => false
  | refillTask | refillThread => true

abbrev Call (K : Type) := Thread Worker (Command K)

/-- The module-level variables. -/
structure Store (K : Type) where
  pool       : Dict String (List K)
  /-- `_REFILL_TASK`, and whether it is done. -/
  refillTask : Option Bool
  /-- How many pairs have been generated. -/
  drawn      : ℕ
  /-- The refill that the last command has started. -/
  started    : List (Call K)
  blocks     : List (Block K)

namespace Store

def keys (s : Store K) (onion : String) : List K := (s.pool.get? onion).getD []

def put (s : Store K) (onion : String) (keys : List K) : Store K :=
  { s with pool := s.pool.insert onion keys }

def record (s : Store K) (block : Block K) : Store K := { s with blocks := s.blocks ++ [block] }

def start (s : Store K) (call : Call K) : Store K := { s with started := [call] }

/-- Before a command. -/
def rest (s : Store K) : Store K := { s with started := [] }

@[simp] theorem keys_put (s : Store K) (onion onion' : String) (keys : List K) :
    (s.put onion keys).keys onion' = if onion' = onion then keys else s.keys onion' := by
  unfold Store.keys put
  rw [Dict.get?_insert]
  split_ifs <;> rfl

@[simp] theorem keys_record (s : Store K) (block : Block K) (onion : String) :
    (s.record block).keys onion = s.keys onion := rfl

@[simp] theorem keys_rest (s : Store K) (onion : String) : s.rest.keys onion = s.keys onion := rfl

@[simp] theorem blocks_put (s : Store K) (onion : String) (keys : List K) :
    (s.put onion keys).blocks = s.blocks := rfl

@[simp] theorem blocks_record (s : Store K) (block : Block K) :
    (s.record block).blocks = s.blocks ++ [block] := rfl

@[simp] theorem blocks_rest (s : Store K) : s.rest.blocks = s.blocks := rfl

end Store

section

variable (cfg : Settings) (gen : ℕ → K)

/-- The call of `fill_pool` that `schedule_refill_if_low` starts. -/
def refill (onion : String) : Command K := .measure onion cfg.refillBatch

/-- One command. `gen i` is the pair that the generator makes as number `i`, unless it fails. -/
def exec (worker : Worker) (fail : Bool) (command : Command K) (s : Store K) :
    Store K × List (Command K) :=
  match command with
  | .measure onion targetSize =>
    let fill : Fill := ⟨onion, targetSize, (s.keys onion).length⟩
    -- `setdefault`
    ((s.put onion (s.keys onion)).record (.measured onion targetSize),
      [.generate fill fill.deficit []])
  | .generate fill 0 added => (s, [.extend fill added])
  | .generate fill (left + 1) added =>
    if fail then (s, [.extend fill added])
    else ({ s with drawn := s.drawn + 1 }, [.generate fill left (added ++ [gen s.drawn])])
  | .extend fill added =>
    (if added = [] then s else s.put fill.onion (s.keys fill.onion ++ added), [])
  | .take onion =>
    match (s.keys onion).getLast? with
    | none => (s, [])
    | some pair =>
      let rest := (s.keys onion).dropLast
      ((s.put onion rest).record (.took onion pair),
        if (rest.length : ℤ) < cfg.lowWatermark then [.checkSize onion] else [])
  | .checkSize onion =>
    (s, if cfg.lowWatermark ≤ (s.keys onion).length then [] else [.schedule onion])
  | .schedule onion =>
    match s.refillTask, worker with
    | some false, _ => (s, [])
    | _, .loop =>
      ({ s with refillTask := some false }.start ⟨.refillTask, [refill cfg onion, .finish]⟩, [])
    -- no running event loop
    | _, _ => (s.start ⟨.refillThread, [refill cfg onion]⟩, [])
  | .drain onion =>
    ({ s with pool := s.pool.erase onion }.record (.drained onion (s.keys onion)), [])
  | .finish => ({ s with refillTask := some true }, [])

/-! ## Runs -/

/-- What the application calls. -/
inductive Request
  | fillPool (onion : String) (targetSize : Option ℤ)
  | takeOneTimePrekey (onion : String)
  | scheduleRefillIfLow (onion : String)
  | initialisePoolForLocalUser (onion : String)
  | drainPool (onion : String)
deriving DecidableEq

def Request.commands : Request → List (Command K)
  | fillPool onion targetSize => [.measure onion (targetSize.getD cfg.poolSize)]
  | takeOneTimePrekey onion => [.take onion]
  | scheduleRefillIfLow onion => [.checkSize onion]
  | initialisePoolForLocalUser onion => if onion = "" then [] else [.measure onion cfg.poolSize]
  | drainPool onion => [.drain onion]

structure System (K : Type) where
  store   : Store K
  threads : List (Call K)

def System.init : System K := ⟨⟨.empty, none, 0, [], []⟩, []⟩

/-- What call `i` is about to run. -/
def System.next (sys : System K) (i : ℕ) : Option (Command K) :=
  sys.threads[i]?.bind fun t => t.todo.head?

/-- A call begins, in a thread with an event loop or without one, or call `i` runs its next
command. -/
inductive Event
  | call (inLoop : Bool) (request : Request)
  | run (i : ℕ) (fail : Bool)
deriving DecidableEq

def apply (sys : System K) : Event → Option (System K)
  | .call inLoop request => some
      { sys with
        threads := sys.threads ++
          [⟨if inLoop then .loop else .plain, request.commands cfg⟩] }
  | .run i fail => (stepThread (exec cfg gen) i fail sys.threads sys.store.rest).map fun out =>
      ⟨out.1, out.2 ++ out.1.started⟩

/-! ## What a step changes -/

namespace Command

/-- What the fill of an `onion` that this is a part of may still add to the pool. -/
def owed (onion : String) : Command K → ℕ
  | generate fill left added => if fill.onion = onion then left + added.length else 0
  | extend fill added => if fill.onion = onion then added.length else 0
  | _ => 0

/-- The pairs that it has generated. -/
def carried : Command K → List K
  | generate _ _ added | extend _ added => added
  | _ => []

end Command

def System.owed (sys : System K) (onion : String) : ℕ :=
  ((pending sys.threads).map (Command.owed onion)).sum

def System.carried (sys : System K) : List K := (pending sys.threads).flatMap Command.carried

variable {cfg gen} {sys sys' : System K}

/-- Commands that owe nothing and carry nothing, taken together. -/
theorem sum_idle {commands : List (Command K)}
    (h : ∀ c ∈ commands, (∀ onion, c.owed onion = 0) ∧ c.carried = []) :
    (∀ onion, (commands.map (Command.owed onion)).sum = 0) ∧
      commands.flatMap Command.carried = [] := by
  constructor
  · intro onion
    refine List.sum_eq_zero_iff_forall_eq_nat.mpr fun n hn => ?_
    obtain ⟨c, hc, rfl⟩ := List.mem_map.mp hn
    exact (h c hc).1 onion
  · exact List.flatMap_eq_nil_iff.mpr fun c hc => (h c hc).2

/-- The commands that calls begin with. -/
theorem commands_cases {request : Request} {c : Command K} (hc : c ∈ request.commands cfg) :
    (∃ onion targetSize, c = .measure onion targetSize) ∨
      ∃ onion, c = .take onion ∨ c = .checkSize onion ∨ c = .drain onion := by
  cases request with
  | fillPool onion targetSize => exact .inl ⟨onion, _, List.mem_singleton.mp hc⟩
  | takeOneTimePrekey onion => exact .inr ⟨onion, .inl (List.mem_singleton.mp hc)⟩
  | scheduleRefillIfLow onion => exact .inr ⟨onion, .inr (.inl (List.mem_singleton.mp hc))⟩
  | initialisePoolForLocalUser onion =>
    rw [Request.commands] at hc
    split at hc
    · cases hc
    · exact .inl ⟨onion, _, List.mem_singleton.mp hc⟩
  | drainPool onion => exact .inr ⟨onion, .inr (.inr (List.mem_singleton.mp hc))⟩

/-- A refill is at its first command. -/
theorem todo_of_mem_started {worker : Worker} {fail : Bool} {command : Command K} {s : Store K} :
    ∀ call ∈ (exec cfg gen worker fail command s.rest).1.started,
      ∃ onion, call.todo = [refill cfg onion] ∨ call.todo = [refill cfg onion, .finish] := by
  intro call hcall
  cases command with
  | generate fill left added =>
    cases left <;> cases fail <;> simp [exec, Store.rest] at hcall
  | extend fill added =>
    simp only [exec] at hcall
    split at hcall <;> simp [Store.rest, Store.put] at hcall
  | take onion =>
    simp only [exec] at hcall
    split at hcall <;> simp [Store.rest, Store.put, Store.record] at hcall
  | schedule onion =>
    refine ⟨onion, ?_⟩
    simp only [exec] at hcall
    split at hcall
    · simp [Store.rest] at hcall
    · exact .inr (by rw [List.mem_singleton.mp hcall])
    · exact .inl (by rw [List.mem_singleton.mp hcall])
  | _ => simp [exec, Store.rest, Store.put, Store.record] at hcall

/-- Refills that have just started owe nothing and carry nothing. -/
theorem pending_started {worker : Worker} {fail : Bool} {command : Command K} {s : Store K} :
    let started := (exec cfg gen worker fail command s.rest).1.started
    (∀ onion, ((pending started).map (Command.owed onion)).sum = 0) ∧
      (pending started).flatMap Command.carried = [] := by
  intro started
  have hstarted : ∀ c ∈ pending started, (∃ onion, c = refill cfg onion) ∨ c = .finish := by
    intro c hc
    obtain ⟨call, hcall, hc⟩ := List.mem_flatMap.mp hc
    obtain ⟨onion, htodo | htodo⟩ := todo_of_mem_started call hcall
    · rw [htodo, List.mem_singleton] at hc
      exact .inl ⟨onion, hc⟩
    · rw [htodo, List.mem_cons, List.mem_singleton] at hc
      exact hc.imp_left fun hc => ⟨onion, hc⟩
  refine sum_idle fun c hc => ?_
  obtain ⟨_, rfl⟩ | rfl := hstarted c hc <;> exact ⟨fun _ => rfl, rfl⟩

/-- Call `i` runs a command: others take its place, and a refill may start. -/
theorem apply_run_split {i : ℕ} {fail : Bool} (h : apply cfg gen sys (.run i fail) = some sys') :
    ∃ l₁ worker command rest l₂, sys.threads[i]? = some ⟨worker, command :: rest⟩ ∧
      sys.threads = l₁ ++ ⟨worker, command :: rest⟩ :: l₂ ∧
      sys'.store = (exec cfg gen worker fail command sys.store.rest).1 ∧
      sys'.threads = l₁ ++
        ⟨worker, (exec cfg gen worker fail command sys.store.rest).2 ++ rest⟩ :: l₂ ++
          sys'.store.started := by
  obtain ⟨⟨s', threads'⟩, hstep, rfl⟩ := Option.map_eq_some_iff.mp h
  obtain ⟨l₁, worker, command, rest, l₂, hget, hsplit, rfl, rfl⟩ := stepThread_cases hstep
  exact ⟨l₁, worker, command, rest, l₂, hget, hsplit, rfl, rfl⟩

/-- What the command owed and carried makes place for what the next commands owe and
carry. -/
theorem apply_run {i : ℕ} {fail : Bool} (h : apply cfg gen sys (.run i fail) = some sys') :
    ∃ worker command, sys.next i = some command ∧
      command ∈ pending sys.threads ∧
      sys'.store = (exec cfg gen worker fail command sys.store.rest).1 ∧
      (∀ onion, sys'.owed onion + command.owed onion = sys.owed onion +
        ((exec cfg gen worker fail command sys.store.rest).2.map (Command.owed onion)).sum) ∧
      ∀ [BEq K] (x : K), sys'.carried.count x + command.carried.count x = sys.carried.count x +
        ((exec cfg gen worker fail command sys.store.rest).2.flatMap Command.carried).count x := by
  obtain ⟨l₁, worker, command, rest, l₂, hget, hsplit, hstore, hthreads⟩ := apply_run_split h
  refine ⟨worker, command, by rw [System.next, hget]; rfl, ?_, hstore, fun onion => ?_,
    fun x => ?_⟩
  · rw [hsplit, mem_pending_at]
    exact .inl List.mem_cons_self
  · have hmoved := sum_pending_step l₁ l₂ worker command
      (exec cfg gen worker fail command sys.store.rest).2 rest (Command.owed onion)
    rw [System.owed, System.owed, hthreads, pending_append, List.map_append, List.sum_append,
      hstore, pending_started.1, hsplit]
    omega
  · have hmoved := count_flatMap_pending_step l₁ l₂ worker command
      (exec cfg gen worker fail command sys.store.rest).2 rest Command.carried x
    rw [System.carried, System.carried, hthreads, pending_append, List.flatMap_append,
      hstore, pending_started.2, List.append_nil, hsplit]
    omega

/-- A call that begins owes nothing and carries nothing. -/
theorem apply_call {inLoop : Bool} {request : Request}
    (h : apply cfg gen sys (.call inLoop request) = some sys') :
    sys'.store = sys.store ∧ (∀ onion, sys'.owed onion = sys.owed onion) ∧
      sys'.carried = sys.carried := by
  obtain rfl := Option.some.inj h
  have hnew : (∀ onion, ((request.commands cfg).map (Command.owed (K := K) onion)).sum = 0) ∧
      (request.commands cfg).flatMap (Command.carried (K := K)) = [] := by
    refine sum_idle fun c hc => ?_
    obtain ⟨_, _, rfl⟩ | ⟨_, rfl | rfl | rfl⟩ := commands_cases hc <;> exact ⟨fun _ => rfl, rfl⟩
  refine ⟨rfl, fun onion => ?_, ?_⟩
  · rw [System.owed, pending_append, List.map_append, List.sum_append]
    refine Nat.add_eq_left.mpr ?_
    simpa using hnew.1 onion
  · rw [System.carried, pending_append, List.flatMap_append]
    refine List.append_right_eq_self.mpr ?_
    simpa using hnew.2

end

/-! ## What the pool keeps to -/

/-- The pairs that a block has handed out. -/
def Block.returned : Block K → List K
  | measured _ _ => []
  | took _ pair => [pair]
  | drained _ pairs => pairs

/-- No pair is returned by two takes, or by a take and a drain. -/
def Unique (s : Store K) : Prop := (s.blocks.flatMap Block.returned).Nodup

/-- No pool is larger than the largest target that was asked for it. -/
def WithinTarget (s : Store K) : Prop :=
  ∀ onion, s.keys onion = [] ∨ ∃ targetSize, .measured onion targetSize ∈ s.blocks ∧
    ((s.keys onion).length : ℤ) ≤ targetSize

/-- A drained pool is empty as long as no fill has begun. -/
def StaysDrained (s : Store K) : Prop :=
  ∀ onion pairs before after, s.blocks = before ++ .drained onion pairs :: after →
    (∀ targetSize, .measured onion targetSize ∉ after) → s.keys onion = []

section

variable {cfg : Settings} {gen : ℕ → K}

/-- A fill of `onion` with a target of at least `n` has begun. -/
def Block.Reaches (onion : String) (n : ℤ) : Block K → Prop
  | measured onion' targetSize => onion' = onion ∧ n ≤ targetSize
  | took _ _ | drained _ _ => False

/-- When a fill that has to add to a pool begins, the pool is owed nothing, or so little that some
target leaves room for it. When a pool is drained, it is owed nothing. -/
def Apart (sys : System K) : Command K → Prop
  | .measure onion targetSize =>
    targetSize ≤ (sys.store.keys onion).length ∨ sys.owed onion = 0 ∨
      ∃ block ∈ sys.store.blocks, block.Reaches onion (sys.owed onion + targetSize)
  | .drain onion => sys.owed onion = 0
  | _ => True

def Undisturbed (sys : System K) : Event → Prop
  | .call _ _ => True
  | .run i _ => ∀ command ∈ sys.next i, Apart sys command

/-! ### Uniqueness -/

/-- A generated pair is in one place: returned, in a pool, or in the hands of a fill. -/
def Conserved [BEq K] (gen : ℕ → K) (sys : System K) : Prop :=
  ∀ x, (sys.store.blocks.flatMap Block.returned).count x +
      (sys.store.pool.weigh fun _ keys => keys.count x) + sys.carried.count x ≤
    ((List.range sys.store.drawn).map gen).count x

section

variable [BEq K]

theorem weigh_put (s : Store K) (onion : String) (keys : List K) (x : K) :
    ((s.put onion keys).pool.weigh fun _ keys => keys.count x) + (s.keys onion).count x =
      (s.pool.weigh fun _ keys => keys.count x) + keys.count x := by
  have hput := Dict.weigh_insert (fun _ keys => keys.count x) s.pool onion keys
  rw [Store.keys, Store.put]
  cases hget : s.pool.get? onion <;> simpa [hget] using hput

theorem weigh_drain (s : Store K) (onion : String) (x : K) :
    ((s.pool.erase onion).weigh fun _ keys => keys.count x) + (s.keys onion).count x =
      s.pool.weigh fun _ keys => keys.count x := by
  have herase := Dict.weigh_erase (fun _ keys => keys.count x) s.pool onion
  rw [Store.keys]
  cases hget : s.pool.get? onion <;> simpa [hget] using herase

/-- A command neither copies a pair nor makes one up. -/
theorem exec_conserves (worker : Worker) (fail : Bool) (command : Command K) (s : Store K) (x : K) :
    let out := exec cfg gen worker fail command s
    (out.1.blocks.flatMap Block.returned).count x + (out.1.pool.weigh fun _ keys => keys.count x) +
        (out.2.flatMap Command.carried).count x + ((List.range s.drawn).map gen).count x =
      (s.blocks.flatMap Block.returned).count x + (s.pool.weigh fun _ keys => keys.count x) +
        command.carried.count x + ((List.range out.1.drawn).map gen).count x := by
  cases command with
  | measure onion targetSize =>
    have hput := weigh_put s onion (s.keys onion) x
    simp [exec, Store.record, Store.put, Block.returned, Command.carried] at hput ⊢
    omega
  | generate fill left added =>
    cases left with
    | zero => simp [exec, Command.carried]
    | succ left =>
      cases fail with
      | true => simp [exec, Command.carried]
      | false =>
        simp [exec, Command.carried, List.range_succ]
        omega
  | extend fill added =>
    have hput := weigh_put s fill.onion (s.keys fill.onion ++ added) x
    rw [List.count_append] at hput
    simp only [exec]
    split
    · subst added
      simp [Command.carried]
    · simp [Command.carried, Store.put] at hput ⊢
      omega
  | take onion =>
    simp only [exec]
    split
    · simp [Command.carried]
    · rename_i pair hlast
      have hput := weigh_put s onion (s.keys onion).dropLast x
      -- the last pair leaves the pool
      have hkeys : (s.keys onion).count x = (s.keys onion).dropLast.count x + [pair].count x := by
        rw [← List.count_append, List.dropLast_append_getLast? pair hlast]
      split <;>
        simp [Command.carried, Store.put, Store.record, Block.returned] at hput hkeys ⊢ <;> omega
  | checkSize onion =>
    simp only [exec]
    split <;> simp [Command.carried]
  | schedule onion =>
    simp only [exec]
    split <;> simp [Command.carried, Store.start]
  | drain onion =>
    have hdrain := weigh_drain s onion x
    simp [exec, Command.carried, Store.record, Block.returned]
    omega
  | finish => simp [exec, Command.carried]

theorem conserved_apply {sys sys' : System K} (e : Event) (h : Conserved gen sys)
    (happly : apply cfg gen sys e = some sys') : Conserved gen sys' := by
  intro x
  cases e with
  | call inLoop request =>
    -- neither the store nor what the fills carry has changed
    obtain ⟨hstore, -, hcarried⟩ := apply_call happly
    rw [hstore, hcarried]
    exact h x
  | run i fail =>
    obtain ⟨worker, command, -, -, hstore, -, hcarried⟩ := apply_run happly
    have hexec := @exec_conserves _ cfg gen _ worker fail command sys.store.rest x
    have hmoved := hcarried x
    have hbefore := h x
    rw [hstore]
    dsimp only [Store.rest] at hexec hmoved hbefore ⊢
    omega

theorem unique_of_conserved [LawfulBEq K] (hgen : Function.Injective gen) {sys : System K}
    (h : Conserved gen sys) : Unique sys.store := by
  refine List.nodup_iff_count_le_one.mpr fun x => ?_
  have hdrawn : ((List.range sys.store.drawn).map gen).count x ≤ 1 :=
    List.nodup_iff_count_le_one.mp (List.nodup_range.map hgen) x
  have := h x
  omega

end

/-! ### The size and the drain -/

/-- What a pool holds and is owed grows in the first block of a fill only, and then to the target
if nothing was owed. -/
theorem exec_grows (worker : Worker) (fail : Bool) (command : Command K) (s : Store K)
    (onion : String) :
    let out := exec cfg gen worker fail command s
    (out.1.keys onion).length + (out.2.map (Command.owed onion)).sum ≤
        (s.keys onion).length + command.owed onion ∨
      ∃ targetSize, command = .measure onion targetSize ∧ (s.keys onion).length < targetSize ∧
        ((out.1.keys onion).length : ℤ) + (out.2.map (Command.owed onion)).sum = targetSize := by
  cases command with
  | measure onion' targetSize =>
    by_cases honion : onion = onion'
    · subst honion
      rcases Int.lt_or_le (s.keys onion).length targetSize with hlt | hge
      · -- what the fill owes from here on is what is missing to the target
        refine .inr ⟨targetSize, rfl, hlt, ?_⟩
        simp [exec, Command.owed, Fill.deficit]
        omega
      · left
        simp [exec, Command.owed, Fill.deficit]
        omega
    · left
      simp [exec, Command.owed, honion, Ne.symm honion]
  | generate fill left added =>
    left
    cases left with
    | zero => simp [exec, Command.owed]
    | succ left =>
      cases fail with
      | true =>
        simp only [exec, Command.owed, if_true, List.map_cons, List.map_nil, List.sum_cons,
          List.sum_nil]
        split <;> omega
      | false =>
        have hkeys : Store.keys { s with drawn := s.drawn + 1 } onion = s.keys onion := rfl
        simp only [exec, Command.owed, Bool.false_eq_true, if_false, List.map_cons, List.map_nil,
          List.sum_cons, List.sum_nil, List.length_append, List.length_singleton, hkeys]
        split <;> omega
  | extend fill added =>
    left
    simp only [exec, Command.owed]
    split
    · simp
    · -- what was carried is in the pool now
      rw [Store.keys_put]
      by_cases honion : fill.onion = onion
      · simp [honion]
      · simp [honion, Ne.symm honion]
  | take onion' =>
    left
    simp only [exec]
    split
    · simp
    · have hnext : ∀ c : Prop, [Decidable c] →
          ((if c then [Command.checkSize onion'] else []).map
            (Command.owed (K := K) onion)).sum = 0 := by
        intro c _
        split <;> rfl
      rw [Store.keys_record, Store.keys_put, hnext]
      by_cases honion : onion = onion'
      · subst honion
        rw [if_pos rfl, List.length_dropLast]
        omega
      · rw [if_neg honion]
        omega
  | checkSize onion' =>
    left
    simp only [exec]
    split <;> simp [Command.owed]
  | schedule onion' =>
    left
    simp only [exec]
    split <;> simp [Command.owed, Store.start, Store.keys]
  | drain onion' =>
    left
    by_cases honion : onion = onion'
    · simp [exec, Store.keys, Store.record, Dict.get?_erase, honion]
    · simp [exec, Store.keys, Store.record, Dict.get?_erase, honion]
  | finish =>
    left
    simp [exec, Store.keys]

theorem keys_exec_drain (worker : Worker) (fail : Bool) (onion : String) (s : Store K) :
    (exec cfg gen worker fail (.drain onion) s).1.keys onion = [] := by
  simp [exec, Store.keys, Store.record, Dict.get?_erase]

/-- The log of blocks only grows: by the first block of each fill, and by a drain at a drain. -/
theorem exec_blocks (worker : Worker) (fail : Bool) (command : Command K) (s : Store K) :
    ∃ more, (exec cfg gen worker fail command s).1.blocks = s.blocks ++ more ∧
      (∀ onion pairs, .drained onion pairs ∈ more → command = .drain onion) ∧
      ∀ onion targetSize, command = .measure onion targetSize →
        .measured onion targetSize ∈ more := by
  cases command with
  | measure onion targetSize => exact ⟨[.measured onion targetSize], by simp [exec]⟩
  | generate fill left added =>
    refine ⟨[], ?_⟩
    cases left <;> cases fail <;> simp [exec]
  | extend fill added =>
    refine ⟨[], ?_⟩
    simp only [exec]
    split <;> simp
  | take onion =>
    simp only [exec]
    split
    · exact ⟨[], by simp⟩
    · rename_i pair _
      exact ⟨[.took onion pair], by simp⟩
  | schedule onion =>
    refine ⟨[], ?_⟩
    simp only [exec]
    split <;> simp [Store.start]
  | drain onion => exact ⟨[.drained onion (s.keys onion)], by simp [exec]⟩
  | _ => exact ⟨[], by simp [exec]⟩

/-- Of the pools and what they are owed. -/
structure Bounded (sys : System K) : Prop where
  within : ∀ onion, (sys.store.keys onion).length + sys.owed onion = 0 ∨
    ∃ targetSize, .measured onion targetSize ∈ sys.store.blocks ∧
      ((sys.store.keys onion).length : ℤ) + sys.owed onion ≤ targetSize
  drained : ∀ onion pairs before after, sys.store.blocks = before ++ .drained onion pairs :: after →
    (∀ targetSize, .measured onion targetSize ∉ after) →
      (sys.store.keys onion).length + sys.owed onion = 0

theorem bounded_run {sys sys' : System K} {i : ℕ} {fail : Bool} (h : Bounded sys)
    (hok : Undisturbed sys (.run i fail)) (happly : apply cfg gen sys (.run i fail) = some sys') :
    Bounded sys' := by
  obtain ⟨worker, command, hnext, -, hstore, howed, -⟩ := apply_run happly
  have hapart : Apart sys command := hok command hnext
  obtain ⟨more, hblocks, hmore, hmeasure⟩ :=
    @exec_blocks _ cfg gen worker fail command sys.store.rest
  rw [← hstore, Store.blocks_rest] at hblocks
  -- in terms of the systems
  have hgrows : ∀ onion, (sys'.store.keys onion).length + sys'.owed onion ≤
        (sys.store.keys onion).length + sys.owed onion ∨
      (∃ targetSize, command = .measure onion targetSize) ∧
        ∃ targetSize, .measured onion targetSize ∈ sys'.store.blocks ∧
          ((sys'.store.keys onion).length : ℤ) + sys'.owed onion ≤ targetSize := by
    intro onion
    have hmoved := howed onion
    rcases @exec_grows _ cfg gen worker fail command sys.store.rest onion with
      hle | ⟨targetSize, rfl, hlt, hsum⟩
    · rw [← hstore, Store.keys_rest] at hle
      exact .inl (by omega)
    · rw [← hstore, Store.keys_rest] at *
      have howes : (Command.measure (K := K) onion targetSize).owed onion = 0 := rfl
      refine .inr ⟨⟨targetSize, rfl⟩, ?_⟩
      rw [hblocks]
      -- a fill with something to add is owed to nobody else, or an earlier target has room for it
      rcases hapart with hge | hnone | ⟨block, hmem, hreaches⟩
      · omega
      · exact ⟨targetSize, List.mem_append_right _ (hmeasure onion targetSize rfl), by omega⟩
      · cases block with
        | measured onion' targetSize' =>
          obtain ⟨rfl, hreaches⟩ := hreaches
          exact ⟨targetSize', List.mem_append_left _ hmem, by omega⟩
        | _ => exact hreaches.elim
  constructor
  case within =>
    intro onion
    rcases hgrows onion with hle | ⟨-, hbound⟩
    · rcases h.within onion with hzero | ⟨targetSize, hmem, hbound⟩
      · exact .inl (by omega)
      · refine .inr ⟨targetSize, ?_, by omega⟩
        rw [hblocks]
        exact List.mem_append_left _ hmem
    · exact .inr hbound
  case drained =>
    intro onion pairs before after hsplit hafter
    rw [hblocks] at hsplit
    -- the drain itself
    have hnow : .drained onion pairs ∈ more →
        (sys'.store.keys onion).length + sys'.owed onion = 0 := by
      intro hmem
      obtain rfl := hmore onion pairs hmem
      have hmoved := howed onion
      have hnone : sys.owed onion = 0 := hapart
      have hempty : sys'.store.keys onion = [] := by rw [hstore, keys_exec_drain]
      have hnext : (exec cfg gen worker fail (.drain onion) sys.store.rest).2 = [] := rfl
      rw [hnext, List.map_nil, List.sum_nil] at hmoved
      rw [hempty, List.length_nil]
      omega
    rcases List.append_eq_append_iff.mp hsplit with ⟨mid, rfl, hmid⟩ | ⟨mid, hmid, htail⟩
    · exact hnow (by rw [hmid]; simp)
    · cases mid with
      | nil => exact hnow (by rw [List.nil_append] at htail; rw [← htail]; simp)
      | cons block mid =>
        -- an earlier drain, and no fill has begun since
        obtain ⟨rfl, rfl⟩ := List.cons.inj htail
        have hzero := h.drained onion pairs before mid hmid fun targetSize hmem =>
          hafter targetSize (List.mem_append_left _ hmem)
        rcases hgrows onion with hle | ⟨⟨targetSize, hcommand⟩, -⟩
        · omega
        · exact absurd (List.mem_append_right _ (hmeasure onion targetSize hcommand))
            (hafter targetSize)

theorem bounded_apply {sys sys' : System K} (e : Event) (h : Bounded sys) (hok : Undisturbed sys e)
    (happly : apply cfg gen sys e = some sys') : Bounded sys' := by
  cases e with
  | call inLoop request =>
    obtain ⟨hstore, howed, -⟩ := apply_call happly
    exact ⟨by simpa only [hstore, howed] using h.within,
      by simpa only [hstore, howed] using h.drained⟩
  | run i fail => exact bounded_run h hok happly

end

/-! ## All runs -/

/-- If the generated pairs differ from each other, then no pair is returned twice in any run, and
the sizes and the drains are as they are to be in every run whose fills are undisturbed. -/
theorem pool_kept (cfg : Settings) {gen : ℕ → K} (hgen : Function.Injective gen) :
    (∀ sys, Run (apply cfg gen) (fun _ _ => True) System.init sys → Unique sys.store) ∧
    ∀ sys, Run (apply cfg gen) Undisturbed System.init sys →
      WithinTarget sys.store ∧ StaysDrained sys.store := by
  constructor
  · intro sys hrun
    classical
    -- each generated pair is in one place in every run, disturbed or not
    refine unique_of_conserved hgen (hrun.invariant ?_ fun s e s' h _ => conserved_apply e h)
    intro x
    exact Nat.le_refl 0
  · intro sys hrun
    have hbounded : Bounded sys := by
      refine hrun.invariant ⟨fun _ => .inl rfl, ?_⟩ fun s e s' => bounded_apply e
      intro onion pairs before after hsplit
      cases before <;> cases hsplit
    constructor
    · intro onion
      rcases hbounded.within onion with hzero | ⟨targetSize, hmem, hle⟩
      · exact .inl (List.length_eq_zero_iff.mp (by omega))
      · exact .inr ⟨targetSize, hmem, by omega⟩
    · intro onion pairs before after hsplit hafter
      have := hbounded.drained onion pairs before after hsplit hafter
      exact List.length_eq_zero_iff.mp (by omega)

/-! ## Two fills at once, and a drain in the middle of one -/

instance (onion : String) (n : ℤ) : (block : Block K) → Decidable (block.Reaches onion n)
  | .measured onion' targetSize => inferInstanceAs (Decidable (onion' = onion ∧ n ≤ targetSize))
  | .took _ _ | .drained _ _ => .isFalse not_false

instance (sys : System K) : (command : Command K) → Decidable (Apart sys command)
  | .measure onion targetSize => inferInstanceAs
      (Decidable (targetSize ≤ (sys.store.keys onion).length ∨ sys.owed onion = 0 ∨
        ∃ block ∈ sys.store.blocks, block.Reaches onion (sys.owed onion + targetSize)))
  | .drain onion => inferInstanceAs (Decidable (sys.owed onion = 0))
  | .generate _ _ _ | .extend _ _ | .take _ | .checkSize _ | .schedule _ | .finish =>
    .isTrue trivial

instance (sys : System K) : (e : Event) → Decidable (Undisturbed sys e)
  | .call _ _ => .isTrue trivial
  | .run i _ => inferInstanceAs (Decidable (∀ command ∈ sys.next i, Apart sys command))

/-- A fill of two, a take and a drain, one after the other. -/
def fillTakeDrain : List Event :=
  [.call false (.fillPool "o.onion" (some 2)), .run 0 false, .run 0 false, .run 0 false,
   .run 0 false, .run 0 false,
   .call false (.takeOneTimePrekey "o.onion"), .run 1 false,
   .call false (.drainPool "o.onion"), .run 2 false]

theorem fillTakeDrain_kept : ∃ sys : System ℕ,
    Run (apply .default id) Undisturbed System.init sys ∧
      sys.store.blocks = [.measured "o.onion" 2, .took "o.onion" 1, .drained "o.onion" [0]] ∧
      Unique sys.store ∧ WithinTarget sys.store ∧ StaysDrained sys.store := by
  obtain ⟨sys, hrun, hblocks⟩ := @Run.exists_of_runAll _ _ (apply .default (id : ℕ → ℕ))
    Undisturbed System.init _ fillTakeDrain
    (fun sys => sys.store.blocks =
      [.measured "o.onion" 2, .took "o.onion" 1, .drained "o.onion" [0]]) (by decide +kernel)
  have hkept := pool_kept .default Function.injective_id
  refine ⟨sys, hrun, of_decide_eq_true hblocks, hkept.1 sys ?_, hkept.2 sys hrun⟩
  exact hrun.mono fun _ _ _ => trivial

/-- Two fills measure the empty pool. -/
def twoFills : List Event :=
  [.call false (.fillPool "o.onion" (some 1)), .call false (.fillPool "o.onion" (some 1)),
   .run 0 false, .run 1 false, .run 0 false, .run 0 false, .run 0 false, .run 1 false,
   .run 1 false, .run 1 false]

/-- The pool is drained while a fill generates. -/
def drainWithinFill : List Event :=
  [.call false (.fillPool "o.onion" (some 1)), .run 0 false, .call false (.drainPool "o.onion"),
   .run 1 false, .run 0 false, .run 0 false, .run 0 false]

/-- Two fills with target one leave two pairs, and a drained pool has a pair although no fill has
begun since. -/
theorem disturbed_fills :
    (∃ sys : System ℕ, Run (apply .default id) (fun _ _ => True) System.init sys ∧
      ¬ WithinTarget sys.store) ∧
    ∃ sys : System ℕ, Run (apply .default id) (fun _ _ => True) System.init sys ∧
      ¬ StaysDrained sys.store := by
  constructor
  · obtain ⟨sys, hrun, hends⟩ := @Run.exists_of_runAll _ _ (apply .default (id : ℕ → ℕ))
      (fun _ _ => True) System.init _ twoFills
      (fun sys => sys.store.keys "o.onion" = [0, 1] ∧
        sys.store.blocks = [.measured "o.onion" 1, .measured "o.onion" 1]) (by decide +kernel)
    obtain ⟨hkeys, hblocks⟩ := of_decide_eq_true hends
    refine ⟨sys, hrun, fun hwithin => ?_⟩
    rcases hwithin "o.onion" with hempty | ⟨targetSize, hmem, hle⟩
    · rw [hkeys] at hempty
      cases hempty
    · have htarget : targetSize = 1 := by simpa [hblocks] using hmem
      rw [hkeys, htarget] at hle
      exact absurd hle (by decide)
  · obtain ⟨sys, hrun, hends⟩ := @Run.exists_of_runAll _ _ (apply .default (id : ℕ → ℕ))
      (fun _ _ => True) System.init _ drainWithinFill
      (fun sys => sys.store.keys "o.onion" = [0] ∧
        sys.store.blocks = [.measured "o.onion" 1, .drained "o.onion" []]) (by decide +kernel)
    obtain ⟨hkeys, hblocks⟩ := of_decide_eq_true hends
    refine ⟨sys, hrun, fun hstays => ?_⟩
    have hempty := hstays "o.onion" [] [.measured "o.onion" 1] [] hblocks (by simp)
    rw [hkeys] at hempty
    cases hempty

end AnonyMus.Python.PrekeyPool
