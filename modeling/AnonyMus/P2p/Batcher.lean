import AnonyMus.Lib.Simulation

/-!
# P2P node — outgoing socket events

`_OutgoingBatcher` of `transports/p2p/socket_v3.py`, with the tasks it starts on
the event loop. The lock is never held across an await that suspends, so what
runs between two suspensions is one step.

* `OutgoingBatcher`, `LoopStep` — the batcher, and what the loop runs next;
* `Sound`, `sound_step` — handed over, still to emit and queued are what was
  enqueued, in order;
* `Gone`, `gone_step` — an event that is nowhere is never handed over;
* `handed_iff` — every event is handed over once and in order exactly when no two
  flushes have events at a time and the flush of the timer suspends only in its
  last emit.
-/

namespace AnonyMus.P2p

open EStateM

variable {ε : Type}

/-! ## The event loop -/

/-- What a task has still to run. -/
inductive Coroutine (ε : Type)
  /-- `_flush_after_latency`, up to the end of its sleep. -/
  | flushAfterLatency
  /-- `_flush`, from its beginning. -/
  | flush
  /-- The loop of `_flush`, suspended in an emit: the events after it. -/
  | emitting (rest : List ε)
  | done

/-- A task, and whether it has been cancelled. -/
structure LoopTask (ε : Type) where
  coroutine : Coroutine ε
  cancelled : Bool

/-- The events that a task has still to hand over. -/
def LoopTask.left (t : LoopTask ε) : List ε :=
  match t.coroutine with
  | .emitting rest => rest
  | _ => []

/-- The batcher, the tasks by number, and the events handed to `sio.emit` so far. -/
structure OutgoingBatcher (ε : Type) where
  queue     : List ε
  flushTask : Option ℕ
  tasks     : List (LoopTask ε)
  handed    : List ε

/-- What happens next on the loop. In a step of `_flush`, `pace` emits return at once before one
suspends the task. -/
inductive LoopStep (ε : Type)
  | enqueue (event : ε)
  | flushNow (pace : ℕ)
  | resume (task pace : ℕ)

namespace OutgoingBatcher

def maxBatchSize : ℕ := 5

def new : OutgoingBatcher ε := ⟨[], none, [], []⟩

/-- `asyncio.create_task`. -/
def createTask (coroutine : Coroutine ε) (b : OutgoingBatcher ε) : OutgoingBatcher ε :=
  { b with tasks := b.tasks ++ [⟨coroutine, false⟩] }

/-- `task.cancel()`, unless the task is done. -/
def cancel (task : ℕ) (b : OutgoingBatcher ε) : OutgoingBatcher ε :=
  { b with tasks := b.tasks.modify task fun t =>
      match t.coroutine with
      | .done => t
      | _ => { t with cancelled := true } }

/-- The task runs to its end. -/
def finish (task : ℕ) (b : OutgoingBatcher ε) : OutgoingBatcher ε :=
  { b with tasks := b.tasks.modify task fun t => { t with coroutine := .done } }

def enqueue (event : ε) (b : OutgoingBatcher ε) : OutgoingBatcher ε :=
  let b := { b with queue := b.queue ++ [event] }
  if maxBatchSize ≤ b.queue.length then b.createTask .flush
  else if b.flushTask.isNone then
    { b.createTask .flushAfterLatency with flushTask := some b.tasks.length }
  else b

/-- The loop of `_flush`, until an emit suspends the task. In a cancelled task that emit raises
`CancelledError`. -/
def emitAll (task : ℕ) (batch : List ε) (pace : ℕ) (b : OutgoingBatcher ε) : OutgoingBatcher ε :=
  { b with
    handed := b.handed ++ batch.take (pace + 1)
    tasks := b.tasks.modify task fun t =>
      { t with
        coroutine :=
          if batch.length ≤ pace ∨ t.cancelled then .done else .emitting (batch.drop (pace + 1)) } }

/-- Cancel the pending timer, even if it is the task that runs. -/
def cancelTimer (b : OutgoingBatcher ε) : OutgoingBatcher ε :=
  match b.flushTask with
  | some timer => { b.cancel timer with flushTask := none }
  | none => b

/-- `_flush`, run by the task. -/
def flush (task pace : ℕ) (b : OutgoingBatcher ε) : OutgoingBatcher ε :=
  if b.queue.isEmpty then b.finish task
  else { b.cancelTimer with queue := [] }.emitAll task b.queue pace

/-- The loop runs the task until it suspends again. -/
def resume (task pace : ℕ) (b : OutgoingBatcher ε) : OutgoingBatcher ε :=
  match b.tasks[task]? with
  | none | some ⟨.done, _⟩ => b
  -- `CancelledError`, in front of the coroutine or where it was suspended
  | some ⟨_, true⟩ => b.finish task
  | some ⟨.flushAfterLatency, false⟩ => b.flush task pace
  | some ⟨.flush, false⟩ => b.flush task pace
  | some ⟨.emitting rest, false⟩ => b.emitAll task rest pace

/-- `flush_now` runs `_flush` in the task of its caller. -/
def flushNow (pace : ℕ) (b : OutgoingBatcher ε) : OutgoingBatcher ε :=
  (b.createTask .flush).flush b.tasks.length pace

def apply : LoopStep ε → OutgoingBatcher ε → OutgoingBatcher ε
  | .enqueue event => enqueue event
  | .flushNow pace => flushNow pace
  | .resume task pace => resume task pace

/-- A step as an action. -/
def act (k : LoopStep ε) : EStateM Empty (OutgoingBatcher ε) Unit := modify (apply k)

/-! ## Order -/

/-- The events that were enqueued, in order. -/
def enqueued (ks : List (LoopStep ε)) : List ε :=
  ks.filterMap fun
    | .enqueue event => some event
    | _ => none

/-- All tasks have run to their ends. -/
def Quiet (b : OutgoingBatcher ε) : Prop := ∀ t ∈ b.tasks, t.coroutine = .done

/-- The events that a task has still to hand over. -/
def left (b : OutgoingBatcher ε) (task : ℕ) : List ε :=
  (b.tasks[task]?.map LoopTask.left).getD []

/-- No flush is under way that has events to hand over. -/
def NothingLeft (b : OutgoingBatcher ε) : Prop := ∀ task, b.left task = []

/-- A flush that begins finds the queue empty or no other flush with events left; in the one that
the timer runs, which cancels itself, no emit but the last suspends. -/
def Orderly : LoopStep ε → OutgoingBatcher ε → Prop
  | .enqueue _, _ => True
  | .flushNow _, b => b.queue = [] ∨ b.NothingLeft
  | .resume task pace, b =>
    match b.tasks[task]? with
    | some ⟨.flush, false⟩ => b.queue = [] ∨ b.NothingLeft
    | some ⟨.flushAfterLatency, false⟩ => b.NothingLeft ∧ b.queue.length ≤ pace + 1
    | _ => True

/-! ## What the steps do to the tasks -/

section

variable {b : OutgoingBatcher ε} {task : ℕ} {t : LoopTask ε}

theorem left_of_some (ht : b.tasks[task]? = some t) : b.left task = t.left := by
  rw [left, ht]
  rfl

theorem getElem?_createTask (coroutine : Coroutine ε) (other : ℕ) :
    (b.createTask coroutine).tasks[other]? =
      if other = b.tasks.length then some ⟨coroutine, false⟩ else b.tasks[other]? := by
  unfold createTask
  dsimp only
  rcases Nat.lt_trichotomy other b.tasks.length with h | h | h
  · rw [List.getElem?_append_left h, if_neg (by omega)]
  · rw [h, List.getElem?_concat_length, if_pos rfl]
  · have hbeyond : [(⟨coroutine, false⟩ : LoopTask ε)].length ≤ other - b.tasks.length := by
      rw [List.length_singleton]
      omega
    rw [List.getElem?_append_right (by omega), if_neg (by omega), List.getElem?_eq_none hbeyond,
      List.getElem?_eq_none (by omega)]

theorem finish_self (ht : b.tasks[task]? = some t) :
    (b.finish task).tasks[task]? = some { t with coroutine := .done } := by
  unfold finish
  rw [List.getElem?_modify_eq, ht]
  rfl

theorem finish_other {other : ℕ} (hne : task ≠ other) :
    (b.finish task).tasks[other]? = b.tasks[other]? := List.getElem?_modify_ne _ _ hne

theorem emitAll_self (batch : List ε) (pace : ℕ) (ht : b.tasks[task]? = some t) :
    (b.emitAll task batch pace).tasks[task]? = some
      { t with coroutine :=
          if batch.length ≤ pace ∨ t.cancelled then .done
          else .emitting (batch.drop (pace + 1)) } := by
  unfold emitAll
  rw [List.getElem?_modify_eq, ht]
  rfl

theorem emitAll_other (batch : List ε) (pace : ℕ) {other : ℕ} (hne : task ≠ other) :
    (b.emitAll task batch pace).tasks[other]? = b.tasks[other]? := List.getElem?_modify_ne _ _ hne

theorem left_createTask {coroutine : Coroutine ε}
    (hleft : (⟨coroutine, false⟩ : LoopTask ε).left = []) (other : ℕ) :
    (b.createTask coroutine).left other = b.left other := by
  unfold left
  rw [getElem?_createTask]
  split_ifs with h
  · rw [h, List.getElem?_eq_none (Nat.le_refl _)]
    exact hleft
  · rfl

theorem left_finish (other : ℕ) :
    (b.finish task).left other = if task = other then [] else b.left other := by
  unfold left
  split_ifs with h
  · subst h
    rcases ht : b.tasks[task]? with _ | t
    · unfold finish
      rw [List.getElem?_modify_eq, ht]
      rfl
    · rw [finish_self ht]
      rfl
  · rw [finish_other h]

theorem left_cancel (other : ℕ) : (b.cancel task).left other = b.left other := by
  unfold left cancel
  rw [List.getElem?_modify]
  rcases b.tasks[other]? with _ | ⟨_ | _ | rest | _, cancelled⟩ <;>
    (by_cases h : task = other <;> simp [h, LoopTask.left])

theorem left_emitAll_self (batch : List ε) (pace : ℕ) (ht : b.tasks[task]? = some t) :
    (b.emitAll task batch pace).left task = if t.cancelled then [] else batch.drop (pace + 1) := by
  rw [left_of_some (emitAll_self batch pace ht)]
  by_cases hcancelled : t.cancelled = true
  · rw [if_pos hcancelled, if_pos (.inr hcancelled)]
    rfl
  by_cases hlen : batch.length ≤ pace
  · have hdrop : batch.drop (pace + 1) = [] := List.drop_eq_nil_of_le (by omega)
    rw [if_neg hcancelled, if_pos (.inl hlen), hdrop]
    rfl
  · rw [if_neg hcancelled, if_neg (by tauto)]
    rfl

theorem left_emitAll_other (batch : List ε) (pace : ℕ) {other : ℕ} (hne : task ≠ other) :
    (b.emitAll task batch pace).left other = b.left other := by
  unfold left
  rw [emitAll_other batch pace hne]

end

/-! ## Everything in order -/

/-- What was handed over, what one flush has left and what is queued are the events in order. The
timer that is kept is the only one that has not been cancelled; it runs as long as events are
queued, unless a flush is about to begin. -/
structure Sound (b : OutgoingBatcher ε) (events : List ε) : Prop where
  order : ∃ task, b.handed ++ b.left task ++ b.queue = events ∧
    ∀ other, other ≠ task → b.left other = []
  timer : ∀ task, b.flushTask = some task ↔
    b.tasks[task]? = some (LoopTask.mk .flushAfterLatency false)
  waiting : b.flushTask ≠ none → b.queue ≠ []
  served : b.queue ≠ [] →
    b.flushTask ≠ none ∨ ∃ task : ℕ, b.tasks[task]? = some (LoopTask.mk .flush false)
  emitting : ∀ (task : ℕ) (rest : List ε), b.tasks[task]? ≠ some (LoopTask.mk (.emitting rest) true)

theorem sound_new : Sound (new : OutgoingBatcher ε) [] where
  order    := ⟨0, rfl, fun _ _ => rfl⟩
  timer _  := by simp [new]
  waiting  := absurd rfl
  served   := absurd rfl
  emitting := by simp [new]

section

variable {b : OutgoingBatcher ε} {events : List ε} {event : ε} {task pace : ℕ} {t : LoopTask ε}

/-- If no flush has events left, those handed over and those queued are all. -/
theorem Sound.order_of_nothingLeft (h : Sound b events) (hnothing : b.NothingLeft) :
    b.handed ++ b.queue = events := by
  obtain ⟨task, horder, -⟩ := h.order
  rwa [hnothing task, List.append_nil] at horder

/-- A flush that is about to begin disturbs nothing. -/
theorem Sound.createTask (h : Sound b events) : Sound (b.createTask .flush) events where
  order := by
    obtain ⟨task, horder, hother⟩ := h.order
    refine ⟨task, ?_, fun other hne => ?_⟩
    · rw [left_createTask rfl]
      exact horder
    · rw [left_createTask rfl]
      exact hother other hne
  timer := by
    intro task
    rw [getElem?_createTask]
    split_ifs with hnew
    · -- the number of the new task is not in use
      have hnone : b.tasks[task]? = none := List.getElem?_eq_none (Nat.le_of_eq hnew.symm)
      refine iff_of_false (fun hkept => ?_) (by simp)
      rw [(h.timer task).mp hkept] at hnone
      cases hnone
    · exact h.timer task
  waiting  := h.waiting
  served _ := .inr ⟨b.tasks.length, by rw [getElem?_createTask, if_pos rfl]⟩
  emitting := by
    intro task rest
    rw [getElem?_createTask]
    split_ifs
    · simp
    · exact h.emitting task rest

/-- A queued event that a flush or the timer will see. -/
theorem Sound.push (h : Sound b events) (hserved : b.flushTask ≠ none ∨
      ∃ task : ℕ, b.tasks[task]? = some (LoopTask.mk .flush false)) :
    Sound { b with queue := b.queue ++ [event] } (events ++ [event]) where
  order := by
    obtain ⟨task, horder, hother⟩ := h.order
    refine ⟨task, ?_, hother⟩
    rw [← horder, List.append_assoc _ b.queue]
    rfl
  timer     := h.timer
  waiting _ := List.append_ne_nil_of_right_ne_nil _ (List.cons_ne_nil _ _)
  served _  := hserved
  emitting  := h.emitting

/-- A queued event, with a timer for it. -/
theorem Sound.push_timer (h : Sound b events) (hfree : b.flushTask = none) :
    Sound { { b with queue := b.queue ++ [event] }.createTask .flushAfterLatency with
      flushTask := some b.tasks.length } (events ++ [event]) where
  order := by
    obtain ⟨task, horder, hother⟩ := h.order
    refine ⟨task, ?_, fun other hne => ?_⟩
    · change b.handed ++ ({ b with queue := b.queue ++ [event] }.createTask .flushAfterLatency).left
        task ++ (b.queue ++ [event]) = _
      rw [left_createTask rfl, ← horder, List.append_assoc _ b.queue]
      rfl
    · change ({ b with queue := b.queue ++ [event] }.createTask .flushAfterLatency).left other = _
      rw [left_createTask rfl]
      exact hother other hne
  timer := by
    intro task
    change some b.tasks.length = some task ↔
      ({ b with queue := b.queue ++ [event] }.createTask .flushAfterLatency).tasks[task]? = _
    rw [getElem?_createTask]
    split_ifs with hnew
    · exact iff_of_true (congrArg some hnew.symm) rfl
    · -- no other timer is kept
      refine iff_of_false (fun hsome => hnew (Option.some.inj hsome).symm) fun htask => ?_
      rw [(h.timer task).mpr htask] at hfree
      cases hfree
  waiting _ := List.append_ne_nil_of_right_ne_nil _ (List.cons_ne_nil _ _)
  served _  := .inl (by simp)
  emitting := by
    intro task rest
    change ({ b with queue := b.queue ++ [event] }.createTask .flushAfterLatency).tasks[task]? ≠ _
    rw [getElem?_createTask]
    split_ifs
    · simp
    · exact h.emitting task rest

theorem sound_enqueue (h : Sound b events) : Sound (b.enqueue event) (events ++ [event]) := by
  unfold enqueue
  dsimp only
  split_ifs with hfull hfree
  · exact h.createTask.push (.inr ⟨b.tasks.length, by rw [getElem?_createTask, if_pos rfl]⟩)
  · exact h.push_timer (Option.isNone_iff_eq_none.mp hfree)
  · exact h.push (.inl fun hnone => hfree (Option.isNone_iff_eq_none.mpr hnone))

/-- The kept timer is cancelled. -/
theorem Sound.cancelTimer_kept (h : Sound b events) (hkept : b.flushTask = some task) :
    b.cancelTimer.tasks[task]? = some ⟨.flushAfterLatency, true⟩ := by
  unfold cancelTimer
  rw [hkept]
  show (b.tasks.modify task _)[task]? = _
  rw [List.getElem?_modify_eq, (h.timer task).mp hkept]
  rfl

theorem cancelTimer_other (hother : b.flushTask ≠ some task) :
    b.cancelTimer.tasks[task]? = b.tasks[task]? := by
  unfold cancelTimer
  split
  · rename_i timer hkept
    refine List.getElem?_modify_ne _ _ ?_
    rintro rfl
    exact hother hkept
  · rfl

theorem cancelTimer_flushTask : b.cancelTimer.flushTask = none := by
  unfold cancelTimer
  split
  · rfl
  · assumption

theorem left_cancelTimer (other : ℕ) : b.cancelTimer.left other = b.left other := by
  unfold cancelTimer
  split
  · exact left_cancel other
  · rfl

theorem cancelTimer_handed : b.cancelTimer.handed = b.handed := by
  unfold cancelTimer
  split <;> rfl

/-- A task that has nothing to do with the order ends. -/
theorem Sound.finish (h : Sound b events) (ht : b.tasks[task]? = some t) (hleft : t.left = [])
    (htimer : t ≠ ⟨.flushAfterLatency, false⟩) (hflush : t = ⟨.flush, false⟩ → b.queue = []) :
    Sound (b.finish task) events where
  order := by
    obtain ⟨active, horder, hother⟩ := h.order
    have hsame : ∀ other, (b.finish task).left other = b.left other := by
      intro other
      rw [left_finish]
      split_ifs with heq
      · rw [← heq, left_of_some ht, hleft]
      · rfl
    refine ⟨active, ?_, fun other hne => ?_⟩
    · rw [hsame]
      exact horder
    · rw [hsame]
      exact hother other hne
  timer := by
    intro other
    refine (h.timer other).trans ?_
    by_cases heq : task = other
    · subst heq
      rw [ht, finish_self ht]
      refine iff_of_false (fun hsome => htimer (Option.some.inj hsome)) (by simp)
    · rw [finish_other heq]
  waiting := h.waiting
  served := by
    intro hqueue
    rcases h.served hqueue with hkept | ⟨other, hother⟩
    · exact .inl hkept
    · refine .inr ⟨other, ?_⟩
      rw [finish_other, hother]
      -- a flush that is about to begin ends only when there is nothing to do
      rintro rfl
      rw [ht] at hother
      exact hqueue (hflush (Option.some.inj hother))
  emitting := by
    intro other rest
    by_cases heq : task = other
    · subst heq
      rw [finish_self ht]
      simp
    · rw [finish_other heq]
      exact h.emitting other rest

/-- The task after `cancelTimer`: cancelled, if it is the timer. -/
theorem Sound.getElem?_cancelTimer (h : Sound b events) {c : Coroutine ε}
    (ht : b.tasks[task]? = some ⟨c, false⟩) :
    ∃ cancelled, b.cancelTimer.tasks[task]? = some ⟨c, cancelled⟩ ∧
      (cancelled = true → c = .flushAfterLatency) := by
  by_cases hkept : b.flushTask = some task
  · have htimer := (h.timer task).mp hkept
    rw [ht] at htimer
    obtain rfl : c = .flushAfterLatency := congrArg LoopTask.coroutine (Option.some.inj htimer)
    exact ⟨true, h.cancelTimer_kept hkept, fun _ => rfl⟩
  · exact ⟨false, (cancelTimer_other hkept).trans ht, fun h => absurd h (by simp)⟩

/-- After `cancelTimer` no timer is left. -/
theorem Sound.cancelTimer_ne (h : Sound b events) (other : ℕ) :
    b.cancelTimer.tasks[other]? ≠ some ⟨.flushAfterLatency, false⟩ := by
  by_cases hkept : b.flushTask = some other
  · rw [h.cancelTimer_kept hkept]
    simp
  · rw [cancelTimer_other hkept]
    exact fun htimer => hkept ((h.timer other).mpr htimer)

/-- A flush drains a queue when no other flush has events left. -/
theorem Sound.flush_cons (h : Sound b events) {c : Coroutine ε}
    (ht : b.tasks[task]? = some ⟨c, false⟩) (hnothing : b.NothingLeft)
    (hpace : c = .flushAfterLatency → b.queue.length ≤ pace + 1) :
    Sound ({ b.cancelTimer with queue := [] }.emitAll task b.queue pace) events := by
  obtain ⟨cancelled, ht', hcancelled⟩ := h.getElem?_cancelTimer ht
  have hself := left_emitAll_self (b := { b.cancelTimer with queue := [] }) b.queue pace ht'
  have htask := emitAll_self (b := { b.cancelTimer with queue := [] }) b.queue pace ht'
  refine ⟨⟨task, ?_, fun other hne => ?_⟩, fun other => ?_, ?_, ?_, fun other rest => ?_⟩
  · rw [hself]
    show b.cancelTimer.handed ++ b.queue.take (pace + 1) ++ _ ++ [] = events
    rw [cancelTimer_handed, List.append_nil, ← h.order_of_nothingLeft hnothing, List.append_assoc]
    split_ifs with hc
    · -- in the timer, which is cancelled, the batch is over
      rw [List.append_nil, List.take_of_length_le (hpace (hcancelled hc))]
    · rw [List.take_append_drop]
  · rw [left_emitAll_other _ _ hne.symm]
    exact (left_cancelTimer other).trans (hnothing other)
  · refine iff_of_false ?_ ?_
    · show b.cancelTimer.flushTask ≠ some other
      rw [cancelTimer_flushTask]
      simp
    · by_cases heq : task = other
      · rw [← heq, htask]
        split_ifs <;> simp
      · rw [emitAll_other _ _ heq]
        exact h.cancelTimer_ne other
  · exact absurd cancelTimer_flushTask
  · exact absurd rfl
  · by_cases heq : task = other
    · rw [← heq, htask]
      split_ifs with hdone
      · simp
      · simp only [not_or] at hdone
        simp [hdone.2]
    · rw [emitAll_other _ _ heq]
      by_cases hkept : b.flushTask = some other
      · show b.cancelTimer.tasks[other]? ≠ _
        rw [h.cancelTimer_kept hkept]
        simp
      · show b.cancelTimer.tasks[other]? ≠ _
        rw [cancelTimer_other hkept]
        exact h.emitting other rest

/-- A flush begins. -/
theorem Sound.flush (h : Sound b events) (ht : b.tasks[task]? = some ⟨.flush, false⟩)
    (hnothing : b.queue = [] ∨ b.NothingLeft) : Sound (b.flush task pace) events := by
  unfold OutgoingBatcher.flush
  split_ifs with hqueue
  · exact h.finish ht rfl (by simp) fun _ => List.isEmpty_iff.mp hqueue
  · have hne : b.queue ≠ [] := fun hnil => hqueue (List.isEmpty_iff.mpr hnil)
    exact h.flush_cons ht (hnothing.resolve_left hne) (by simp)

/-- The sleep of the timer is over. -/
theorem Sound.flush_timer (h : Sound b events)
    (ht : b.tasks[task]? = some ⟨.flushAfterLatency, false⟩) (hnothing : b.NothingLeft)
    (hpace : b.queue.length ≤ pace + 1) : Sound (b.flush task pace) events := by
  have hkept := (h.timer task).mpr ht
  have hne : b.queue ≠ [] := h.waiting (by simp [hkept])
  unfold OutgoingBatcher.flush
  rw [if_neg fun hempty => hne (List.isEmpty_iff.mp hempty)]
  exact h.flush_cons ht hnothing fun _ => hpace

/-- A flush goes on. -/
theorem Sound.emitAll (h : Sound b events) {rest : List ε}
    (ht : b.tasks[task]? = some ⟨.emitting rest, false⟩) :
    Sound (b.emitAll task rest pace) events where
  order := by
    obtain ⟨active, horder, hother⟩ := h.order
    have hleft : b.left task = rest := left_of_some ht
    have hself : (b.emitAll task rest pace).left task = rest.drop (pace + 1) :=
      left_emitAll_self rest pace ht
    refine ⟨active, ?_, fun other hne => ?_⟩
    · by_cases heq : task = active
      · subst heq
        rw [hself, ← horder, hleft]
        show b.handed ++ rest.take (pace + 1) ++ rest.drop (pace + 1) ++ b.queue = _
        rw [List.append_assoc b.handed, List.take_append_drop]
      · -- another flush has the events, and this one none
        obtain rfl : rest = [] := hleft.symm.trans (hother task heq)
        rw [left_emitAll_other [] pace heq, ← horder]
        show b.handed ++ [].take (pace + 1) ++ _ ++ b.queue = _
        rw [List.take_nil, List.append_nil]
    · by_cases heq : task = other
      · subst heq
        rw [hself, ← hleft, hother task hne, List.drop_nil]
      · rw [left_emitAll_other rest pace heq]
        exact hother other hne
  timer := by
    intro other
    refine (h.timer other).trans ?_
    by_cases heq : task = other
    · rw [← heq, ht, emitAll_self rest pace ht]
      split_ifs <;> simp
    · rw [emitAll_other rest pace heq]
  waiting := h.waiting
  served := by
    intro hqueue
    refine (h.served hqueue).imp_right ?_
    rintro ⟨other, hother⟩
    refine ⟨other, ?_⟩
    rw [emitAll_other, hother]
    rintro rfl
    rw [ht] at hother
    cases hother
  emitting := by
    intro other rest'
    by_cases heq : task = other
    · rw [← heq, emitAll_self rest pace ht]
      simp
    · rw [emitAll_other rest pace heq]
      exact h.emitting other rest'

theorem sound_resume (h : Sound b events) (hk : Orderly (.resume task pace) b) :
    Sound (b.resume task pace) events := by
  unfold Orderly at hk
  unfold OutgoingBatcher.resume
  rcases ht : b.tasks[task]? with _ | ⟨_ | _ | rest | _, _ | _⟩ <;> simp only [ht] at hk
  · exact h
  · exact h.flush_timer ht hk.1 hk.2
  · exact h.finish ht rfl (by simp) (by simp)
  · exact h.flush ht hk
  · exact h.finish ht rfl (by simp) (by simp)
  · exact h.emitAll ht
  · exact absurd ht (h.emitting task rest)
  · exact h
  · exact h

theorem sound_flushNow (h : Sound b events) (hk : Orderly (.flushNow pace) b) :
    Sound (b.flushNow pace) events := by
  refine h.createTask.flush ?_ (hk.imp_right fun hnothing task => ?_)
  · rw [getElem?_createTask, if_pos rfl]
  · rw [left_createTask rfl]
    exact hnothing task

/-- One step keeps the order. -/
theorem sound_step (k : LoopStep ε) (h : Sound b events) (hk : Orderly k b) :
    Sound (act k b).state (events ++ enqueued [k]) := by
  rcases k with event | pace | ⟨task, pace⟩
  · exact sound_enqueue h
  · show Sound _ (events ++ [])
    rw [List.append_nil]
    exact sound_flushNow h hk
  · show Sound _ (events ++ [])
    rw [List.append_nil]
    exact sound_resume h hk

/-- When all tasks have run to their ends, everything has been handed over. -/
theorem Sound.handed_eq (h : Sound b events) (hquiet : b.Quiet) : b.handed = events := by
  have hdone : ∀ (task : ℕ) (t : LoopTask ε), b.tasks[task]? = some t → t.coroutine = .done :=
    fun _ t ht => hquiet t (List.mem_of_getElem? ht)
  have hnothing : b.NothingLeft := by
    intro task
    rcases ht : b.tasks[task]? with _ | t
    · rw [left, ht]
      rfl
    · rw [left_of_some ht, LoopTask.left, hdone task t ht]
  have hqueue : b.queue = [] := by
    by_contra hne
    rcases h.served hne with hkept | ⟨task, ht⟩
    · obtain ⟨timer, htimer⟩ := Option.ne_none_iff_exists'.mp hkept
      cases hdone timer _ ((h.timer timer).mp htimer)
    · cases hdone task _ ht
  rw [← h.order_of_nothingLeft hnothing, hqueue, List.append_nil]

/-! ## What goes wrong otherwise -/

/-- The event is nowhere. -/
structure Gone (event : ε) (b : OutgoingBatcher ε) : Prop where
  handed : event ∉ b.handed
  queue  : event ∉ b.queue
  left   : ∀ task, event ∉ b.left task

theorem mem_left_emitAll {batch : List ε} {other : ℕ}
    (hmem : event ∈ (b.emitAll task batch pace).left other) : event ∈ batch ∨ event ∈ b.left other := by
  by_cases heq : task = other
  · subst heq
    rcases ht : b.tasks[task]? with _ | t
    · unfold left OutgoingBatcher.emitAll at hmem
      rw [List.getElem?_modify_eq, ht] at hmem
      cases hmem
    · rw [left_emitAll_self batch pace ht] at hmem
      split_ifs at hmem
      · cases hmem
      · exact .inl (List.mem_of_mem_drop hmem)
  · rw [left_emitAll_other batch pace heq] at hmem
    exact .inr hmem

theorem Gone.emitAll (h : Gone event b) {batch : List ε} (hbatch : event ∉ batch) :
    Gone event (b.emitAll task batch pace) where
  handed := by
    intro hmem
    rcases List.mem_append.mp hmem with hold | hnew
    · exact h.handed hold
    · exact hbatch (List.mem_of_mem_take hnew)
  queue := h.queue
  left other hmem := (mem_left_emitAll hmem).elim hbatch (h.left other)

theorem Gone.finish (h : Gone event b) : Gone event (b.finish task) where
  handed := h.handed
  queue  := h.queue
  left := by
    intro other hmem
    rw [left_finish] at hmem
    split_ifs at hmem
    · cases hmem
    · exact h.left other hmem

theorem Gone.flush (h : Gone event b) : Gone event (b.flush task pace) := by
  unfold OutgoingBatcher.flush
  split_ifs
  · exact h.finish
  · refine Gone.emitAll ⟨?_, List.not_mem_nil, fun other => ?_⟩ h.queue
    · show event ∉ b.cancelTimer.handed
      rw [cancelTimer_handed]
      exact h.handed
    · show event ∉ b.cancelTimer.left other
      rw [left_cancelTimer]
      exact h.left other

theorem Gone.createTask (h : Gone event b) {coroutine : Coroutine ε}
    (hleft : (⟨coroutine, false⟩ : LoopTask ε).left = []) : Gone event (b.createTask coroutine) where
  handed := h.handed
  queue  := h.queue
  left := by
    intro other
    rw [left_createTask hleft]
    exact h.left other

/-- An event that is nowhere stays away, unless it is enqueued again. -/
theorem gone_step (k : LoopStep ε) (h : Gone event b) (hk : event ∉ enqueued [k]) :
    Gone event (act k b).state := by
  rcases k with new | pace | ⟨task, pace⟩
  · have hpush : Gone event { b with queue := b.queue ++ [new] } := by
      refine ⟨h.handed, fun hmem => ?_, h.left⟩
      rcases List.mem_append.mp hmem with hold | hnew
      · exact h.queue hold
      · exact hk hnew
    show Gone event (b.enqueue new)
    unfold enqueue
    dsimp only
    split_ifs
    · exact hpush.createTask rfl
    · have htimer := @Gone.createTask _ _ _ hpush .flushAfterLatency rfl
      exact ⟨htimer.handed, htimer.queue, htimer.left⟩
    · exact hpush
  · exact (h.createTask rfl).flush
  · show Gone event (b.resume task pace)
    unfold OutgoingBatcher.resume
    rcases ht : b.tasks[task]? with _ | ⟨_ | _ | rest | _, _ | _⟩
    · exact h
    · exact h.flush
    · exact h.finish
    · exact h.flush
    · exact h.finish
    · refine h.emitAll fun hrest => h.left task ?_
      rwa [left_of_some ht]
    · exact h.finish
    · exact h
    · exact h

/-- What has been handed over is not taken back. -/
theorem handed_step (k : LoopStep ε) (b : OutgoingBatcher ε) :
    b.handed <+: (act k b).state.handed := by
  have hflush : ∀ (b : OutgoingBatcher ε) (task pace : ℕ), b.handed <+: (b.flush task pace).handed := by
    intro b task pace
    unfold OutgoingBatcher.flush
    split_ifs
    · exact List.prefix_rfl
    · show b.handed <+: b.cancelTimer.handed ++ _
      rw [cancelTimer_handed]
      exact List.prefix_append _ _
  rcases k with new | pace | ⟨task, pace⟩
  · show b.handed <+: (b.enqueue new).handed
    unfold enqueue
    dsimp only
    split_ifs <;> exact List.prefix_rfl
  · exact hflush (b.createTask .flush) _ _
  · show b.handed <+: (b.resume task pace).handed
    unfold OutgoingBatcher.resume
    split
    · exact List.prefix_rfl
    · exact List.prefix_rfl
    · exact List.prefix_rfl
    · exact hflush _ _ _
    · exact hflush _ _ _
    · exact List.prefix_append _ _

/-- A flush that drains the queue hands over its first event. -/
theorem flush_handed (hqueue : b.queue ≠ []) :
    (b.flush task pace).handed = b.handed ++ b.queue.take (pace + 1) := by
  unfold OutgoingBatcher.flush
  rw [if_neg fun hempty => hqueue (List.isEmpty_iff.mp hempty)]
  show b.cancelTimer.handed ++ _ = _
  rw [cancelTimer_handed]

/-- The timer's flush loses what comes after the first emit that suspends. -/
theorem Sound.gone_flush_timer (h : Sound b events) (hnodup : events.Nodup)
    (ht : b.tasks[task]? = some ⟨.flushAfterLatency, false⟩) (hnothing : b.NothingLeft)
    (hpace : pace + 1 < b.queue.length) : ∃ event ∈ events, Gone event (b.flush task pace) := by
  have hall := h.order_of_nothingLeft hnothing
  have hsplit : b.queue.take (pace + 1) ++ b.queue.drop (pace + 1) = b.queue :=
    List.take_append_drop _ _
  obtain ⟨event, hevent⟩ := List.exists_mem_of_length_pos
    (show 0 < (b.queue.drop (pace + 1)).length by rw [List.length_drop]; omega)
  have hmem : event ∈ b.queue := List.mem_of_mem_drop hevent
  rw [← hall] at hnodup
  obtain ⟨-, hnodupQueue, hdisjoint⟩ := List.nodup_append.mp hnodup
  rw [← hsplit] at hnodupQueue
  have hkept := (h.timer task).mpr ht
  have hself := left_emitAll_self (b := { b.cancelTimer with queue := [] }) b.queue pace
    (h.cancelTimer_kept hkept)
  refine ⟨event, by rw [← hall]; exact List.mem_append_right _ hmem, ?_, ?_, ?_⟩
  · rw [flush_handed (List.ne_nil_of_mem hmem)]
    intro hhanded
    rcases List.mem_append.mp hhanded with hold | hnew
    · exact hdisjoint event hold event hmem rfl
    · exact (List.nodup_append.mp hnodupQueue).2.2 event hnew event hevent rfl
  all_goals
    unfold OutgoingBatcher.flush
    rw [if_neg fun hempty => List.ne_nil_of_mem hmem (List.isEmpty_iff.mp hempty)]
  · exact List.not_mem_nil
  · intro other
    by_cases heq : task = other
    · -- the timer has cancelled itself
      rw [← heq, hself, if_pos rfl]
      exact List.not_mem_nil
    · rw [left_emitAll_other _ _ heq]
      show event ∉ b.cancelTimer.left other
      rw [left_cancelTimer, hnothing other]
      exact List.not_mem_nil

/-- A flush that drains the queue past another one hands over an event too early. -/
theorem Sound.not_prefix_flush (h : Sound b events) (hnodup : events.Nodup) (hqueue : b.queue ≠ [])
    (hsome : ¬ b.NothingLeft) : ¬ (b.flush task pace).handed <+: events := by
  intro hprefix
  rw [flush_handed hqueue] at hprefix
  obtain ⟨active, horder, hother⟩ := h.order
  have hleft : b.left active ≠ [] := by
    intro hnil
    refine hsome fun other => ?_
    by_cases heq : other = active
    · rw [heq, hnil]
    · exact hother other heq
  rcases hqueued : b.queue with _ | ⟨first, queue⟩
  · exact hqueue hqueued
  rcases hrest : b.left active with _ | ⟨next, rest⟩
  · exact hleft hrest
  -- the first queued event stands where the first one left belongs
  rw [← horder, hqueued, hrest, List.take_succ_cons, List.append_assoc, List.prefix_append_right_inj,
    List.cons_append, List.cons_prefix_cons] at hprefix
  rw [← horder, hqueued, hrest, hprefix.1, List.append_assoc, List.cons_append] at hnodup
  have hfresh := (List.nodup_cons.mp (List.nodup_append.mp hnodup).2.1).1
  exact hfresh (List.mem_append_right _ List.mem_cons_self)

theorem Sound.length_flush_le (h : Sound b events) (hqueue : b.queue ≠ []) :
    (b.flush task pace).handed.length ≤ events.length := by
  obtain ⟨active, horder, -⟩ := h.order
  rw [flush_handed hqueue, ← horder]
  simp only [List.length_append, List.length_take]
  omega

/-- A step out of order loses an event, or hands one over in front of an earlier one. -/
theorem Sound.not_orderly (h : Sound b events) (hnodup : events.Nodup) {k : LoopStep ε}
    (hk : ¬ Orderly k b) :
    enqueued [k] = [] ∧ ((∃ event ∈ events, Gone event (act k b).state) ∨
      ∀ all, events <+: all → ¬ (act k b).state.handed <+: all) := by
  have hovertakes : ∀ (b : OutgoingBatcher ε) (task pace : ℕ), Sound b events → b.queue ≠ [] →
      ¬ b.NothingLeft → ∀ all, events <+: all → ¬ (b.flush task pace).handed <+: all := by
    intro b task pace h hqueue hsome all hall hprefix
    exact h.not_prefix_flush hnodup hqueue hsome
      (List.prefix_of_prefix_length_le hprefix hall (h.length_flush_le hqueue))
  rcases k with event | pace | ⟨task, pace⟩
  · exact absurd trivial hk
  · refine ⟨rfl, .inr ?_⟩
    simp only [Orderly, not_or] at hk
    refine hovertakes (b.createTask .flush) b.tasks.length pace h.createTask hk.1 fun hnothing => ?_
    refine hk.2 fun other => ?_
    have hsame := @left_createTask _ b .flush rfl other
    exact hsame.symm.trans (hnothing other)
  · refine ⟨rfl, ?_⟩
    show (∃ event ∈ events, Gone event (b.resume task pace)) ∨
      ∀ all, events <+: all → ¬ (b.resume task pace).handed <+: all
    unfold Orderly at hk
    unfold OutgoingBatcher.resume
    rcases ht : b.tasks[task]? with _ | ⟨_ | _ | rest | _, _ | _⟩ <;> simp only [ht] at hk ⊢
    · exact absurd trivial hk
    · by_cases hnothing : b.NothingLeft
      · exact .inl (h.gone_flush_timer hnodup ht hnothing
          (Nat.lt_of_not_le fun hpace => hk ⟨hnothing, hpace⟩))
      · exact .inr (hovertakes b task pace h (h.waiting (by simp [(h.timer task).mpr ht])) hnothing)
    · exact absurd trivial hk
    · rw [not_or] at hk
      exact .inr (hovertakes b task pace h hk.1 hk.2)
    all_goals exact absurd trivial hk

end

/-! ## Runs -/

section

variable {ks : List (LoopStep ε)} {b : OutgoingBatcher ε} {event : ε}

theorem enqueued_append (ks ks' : List (LoopStep ε)) :
    enqueued (ks ++ ks') = enqueued ks ++ enqueued ks' := List.filterMap_append

/-- Steps in order keep the order. -/
theorem sound_after {done : List (LoopStep ε)} (hmeet : AllMeet act Orderly done new) :
    Sound (after act done new) (enqueued done) := by
  induction done using List.reverseRecOn with
  | nil => exact sound_new
  | append_singleton done k ih =>
    obtain ⟨hdone, hk, -⟩ := (allMeet_append act).mp hmeet
    rw [after_append, enqueued_append]
    exact sound_step k (ih hdone) hk

theorem gone_after (h : Gone event b) (hks : event ∉ enqueued ks) :
    Gone event (after act ks b) := by
  induction ks generalizing b with
  | nil => exact h
  | cons k ks ih =>
    rw [← List.singleton_append, enqueued_append, List.mem_append, not_or] at hks
    exact ih (gone_step k h hks.1) hks.2

theorem handed_after : b.handed <+: (after act ks b).handed := by
  induction ks generalizing b with
  | nil => exact List.prefix_rfl
  | cons k ks ih => exact (handed_step k b).trans ih

/-- A run that hands over distinct events in order takes only steps in order. -/
theorem orderly_of_handed (hnodup : (enqueued ks).Nodup)
    (hhanded : (after act ks new).handed = enqueued ks) : AllMeet act Orderly ks new := by
  -- by induction on the prefixes of the run
  suffices hprefixes : ∀ done todo, ks = done ++ todo → AllMeet act Orderly done new from
    hprefixes ks [] (List.append_nil ks).symm
  intro done
  induction done using List.reverseRecOn with
  | nil => exact fun _ _ => trivial
  | append_singleton done k ih =>
    intro todo hks
    rw [List.append_assoc, List.singleton_append] at hks
    have hdone := ih (k :: todo) hks
    refine (allMeet_append act).mpr ⟨hdone, ?_, trivial⟩
    by_contra hk
    have hsound := sound_after hdone
    rw [hks, enqueued_append, ← List.singleton_append, enqueued_append] at hnodup hhanded
    rw [after_append, List.singleton_append, after_cons] at hhanded
    obtain ⟨hnone, ⟨event, hmem, hgone⟩ | hearly⟩ :=
      hsound.not_orderly (List.nodup_append.mp hnodup).1 hk
    · -- the event that is lost is not enqueued again, so it is never handed over
      rw [hnone, List.nil_append] at hnodup hhanded
      have hlater : event ∉ enqueued todo := fun hlater =>
        (List.nodup_append.mp hnodup).2.2 event hmem event hlater rfl
      refine (gone_after hgone hlater).handed ?_
      rw [hhanded]
      exact List.mem_append_left _ hmem
    · refine hearly (enqueued done ++ (enqueued [k] ++ enqueued todo)) (List.prefix_append _ _) ?_
      rw [← hhanded]
      exact handed_after

end

/-- Once all tasks have run to their ends, every event that was enqueued has been handed over
once and in order if all steps were in order, and for distinct events only if they were. -/
theorem handed_iff (ks : List (LoopStep ε)) (hquiet : (after act ks new).Quiet) :
    (AllMeet act Orderly ks new → (after act ks new).handed = enqueued ks) ∧
      ((enqueued ks).Nodup → (after act ks new).handed = enqueued ks →
        AllMeet act Orderly ks new) :=
  ⟨fun hmeet => (sound_after hmeet).handed_eq hquiet, orderly_of_handed⟩

/-- Two events in the flush of the timer, whose first emit suspends. -/
def suspendedTimer : List (LoopStep ℕ) := [.enqueue 1, .enqueue 2, .resume 0 0]

/-- The second event is lost. -/
theorem suspended_timer_loses : (after act suspendedTimer new).Quiet ∧
    (after act suspendedTimer new).handed ≠ enqueued suspendedTimer := by
  constructor
  · intro t ht
    obtain rfl : t = ⟨.done, true⟩ := List.mem_singleton.mp ht
    rfl
  · decide

/-- The flush of the timer, in which no emit suspends. -/
def promptTimer : List (LoopStep ℕ) := [.enqueue 1, .enqueue 2, .resume 0 2]

theorem prompt_timer_delivers : (after act promptTimer new).handed = enqueued promptTimer := by
  have hquiet : (after act promptTimer new).Quiet := by
    intro t ht
    obtain rfl : t = ⟨.done, true⟩ := List.mem_singleton.mp ht
    rfl
  refine (handed_iff promptTimer hquiet).1 ⟨trivial, trivial, ⟨?_, by decide⟩, trivial⟩
  rintro (_ | task) <;> rfl

end OutgoingBatcher

end AnonyMus.P2p
