import Mathlib.Algebra.GroupWithZero.Nat
import Mathlib.Data.List.Nodup
import Mathlib.Tactic.Common

/-!
# Interleaved threads

A concurrent program as a shared state and a pool of threads, each the list of
atomic commands it still has to run. Executing a command changes the shared
state and may put further commands in front of the rest of its thread: the body
of a branch, the recovery of a command that failed.

* `Run`, `Run.invariant` — the runs of an event machine whose events meet a
  condition, and their invariants;
* `runAll`, `Run.of_runAll` — runs found by evaluation;
* `stepThread`, `stepThread_cases` — one command of one thread;
* `pending` — the commands that are still to run;
* `alone` lemmas — a quantity that at most one thread holds.
-/

namespace Interleave

/-! ## Runs -/

section Runs

variable {σ Event : Type} (apply : σ → Event → Option σ) (ok : σ → Event → Prop)

/-- `s` is reached from `init` by events that are possible and `ok`. -/
inductive Run (init : σ) : σ → Prop
  | start : Run init init
  | next {s s'} (e : Event) (hrun : Run init s) (hok : ok s e) (happly : apply s e = some s') :
      Run init s'

variable {apply ok} {init s : σ}

/-- What holds at the start and is kept by every event holds in every run. -/
theorem Run.invariant {I : σ → Prop} (hinit : I init)
    (hstep : ∀ s e s', I s → ok s e → apply s e = some s' → I s')
    (hrun : Run apply ok init s) : I s := by
  induction hrun with
  | start => exact hinit
  | next e _ hok happly ih => exact hstep _ e _ ih hok happly

/-- A run whose events meet a condition meets a weaker one. -/
theorem Run.mono {ok' : σ → Event → Prop} (hrun : Run apply ok init s)
    (h : ∀ s e, ok s e → ok' s e) : Run apply ok' init s := by
  induction hrun with
  | start => exact .start
  | next e _ hok happly ih => exact .next e ih (h _ e hok) happly

variable (apply) in
/-- Apply the events one by one, as long as each is possible and `ok`. -/
def runAll (ok : σ → Event → Prop) [∀ s e, Decidable (ok s e)] : List Event → σ → Option σ
  | [], s => some s
  | e :: es, s => if ok s e then (apply s e).bind (runAll ok es) else none

theorem Run.of_runAll [∀ s e, Decidable (ok s e)] {es : List Event} {s s' : σ}
    (hrun : Run apply ok init s) (hall : runAll apply ok es s = some s') :
    Run apply ok init s' := by
  induction es generalizing s with
  | nil =>
    obtain rfl := Option.some.inj hall
    exact hrun
  | cons e es ih =>
    rw [runAll] at hall
    split at hall
    · rename_i hok
      obtain ⟨s₁, hs₁, hrest⟩ := Option.bind_eq_some_iff.mp hall
      exact ih (.next e hrun hok hs₁) hrest
    · cases hall

/-- A run found by evaluation ends in a state of which `p` holds. -/
theorem Run.exists_of_runAll [∀ s e, Decidable (ok s e)] {es : List Event} {p : σ → Bool}
    (h : (runAll apply ok es init).any p = true) : ∃ s, Run apply ok init s ∧ p s = true := by
  obtain ⟨s, hs, hp⟩ := (Option.any_eq_true p _).mp h
  exact ⟨s, .of_runAll .start hs, hp⟩

end Runs

/-! ## Threads -/

/-- A thread on a processor, worker or host `loc`. -/
structure Thread (Loc Instr : Type) where
  loc  : Loc
  todo : List Instr

section Pool

variable {Loc Instr σ : Type}

/-- The commands that the threads still have to run. -/
def pending (threads : List (Thread Loc Instr)) : List Instr := threads.flatMap Thread.todo

/-- Run the next command of thread `i`, failing or not. -/
def stepThread (exec : Loc → Bool → Instr → σ → σ × List Instr) (i : ℕ) (fail : Bool)
    (threads : List (Thread Loc Instr)) (s : σ) : Option (σ × List (Thread Loc Instr)) :=
  match threads[i]? with
  | some ⟨loc, instr :: rest⟩ =>
    let out := exec loc fail instr s
    some (out.1, threads.set i ⟨loc, out.2 ++ rest⟩)
  | _ => none

theorem getElem?_split {α : Type} {l : List α} {i : ℕ} {a : α} (h : l[i]? = some a) :
    ∃ l₁ l₂, l = l₁ ++ a :: l₂ ∧ l.eraseIdx i = l₁ ++ l₂ ∧ ∀ b, l.set i b = l₁ ++ b :: l₂ := by
  induction l generalizing i with
  | nil => simp at h
  | cons x l ih =>
    cases i with
    | zero =>
      obtain rfl : x = a := by simpa using h
      exact ⟨[], l, rfl, rfl, fun _ => rfl⟩
    | succ i =>
      obtain ⟨l₁, l₂, rfl, herase, hset⟩ := ih (by simpa using h)
      refine ⟨x :: l₁, l₂, rfl, ?_, fun b => ?_⟩
      · rw [List.eraseIdx_cons_succ, herase, List.cons_append]
      · rw [List.set_cons_succ, hset, List.cons_append]

/-- A step replaces the command by the ones it leads to, in its own thread. -/
theorem stepThread_cases {exec : Loc → Bool → Instr → σ → σ × List Instr} {i : ℕ} {fail : Bool}
    {threads threads' : List (Thread Loc Instr)} {s s' : σ}
    (h : stepThread exec i fail threads s = some (s', threads')) :
    ∃ l₁ loc instr rest l₂, threads[i]? = some ⟨loc, instr :: rest⟩ ∧
      threads = l₁ ++ ⟨loc, instr :: rest⟩ :: l₂ ∧ s' = (exec loc fail instr s).1 ∧
      threads' = l₁ ++ ⟨loc, (exec loc fail instr s).2 ++ rest⟩ :: l₂ := by
  unfold stepThread at h
  split at h
  · rename_i loc instr rest hget
    obtain ⟨l₁, l₂, hsplit, -, hset⟩ := getElem?_split hget
    obtain ⟨rfl, rfl⟩ := Prod.mk.inj (Option.some.inj h)
    exact ⟨l₁, loc, instr, rest, l₂, hget, hsplit, rfl, hset _⟩
  · cases h

/-- The thread that has come last runs its next command. -/
theorem stepThread_concat (exec : Loc → Bool → Instr → σ → σ × List Instr) (fail : Bool)
    (threads : List (Thread Loc Instr)) (loc : Loc) (instr : Instr) (rest : List Instr) (s : σ) :
    stepThread exec threads.length fail (threads ++ [⟨loc, instr :: rest⟩]) s =
      some ((exec loc fail instr s).1,
        threads ++ [⟨loc, (exec loc fail instr s).2 ++ rest⟩]) := by
  simp [stepThread]

/-- A thread that cannot run has nothing to run. -/
theorem head_of_stepThread_eq_none {exec : Loc → Bool → Instr → σ → σ × List Instr} {i : ℕ}
    {fail : Bool} {threads : List (Thread Loc Instr)} {s : σ}
    (h : stepThread exec i fail threads s = none) :
    (threads[i]?.bind fun t => t.todo.head?) = none := by
  unfold stepThread at h
  split at h
  · cases h
  · rename_i hnot
    rcases hget : threads[i]? with _ | ⟨loc, _ | ⟨instr, rest⟩⟩
    · rfl
    · rfl
    · exact absurd hget (hnot loc instr rest)

@[simp] theorem pending_append (l l' : List (Thread Loc Instr)) :
    pending (l ++ l') = pending l ++ pending l' := List.flatMap_append

@[simp] theorem pending_cons (t : Thread Loc Instr) (l : List (Thread Loc Instr)) :
    pending (t :: l) = t.todo ++ pending l := List.flatMap_cons

@[simp] theorem pending_nil : pending ([] : List (Thread Loc Instr)) = [] := rfl

theorem mem_pending_at {l₁ l₂ : List (Thread Loc Instr)} {t : Thread Loc Instr} {x : Instr} :
    x ∈ pending (l₁ ++ t :: l₂) ↔ x ∈ t.todo ∨ x ∈ pending l₁ ∨ x ∈ pending l₂ := by
  simp only [pending_append, pending_cons, List.mem_append]
  tauto

theorem countP_pending_at {l₁ l₂ : List (Thread Loc Instr)} {t : Thread Loc Instr}
    (p : Instr → Bool) :
    (pending (l₁ ++ t :: l₂)).countP p =
      t.todo.countP p + ((pending l₁).countP p + (pending l₂).countP p) := by
  simp only [pending_append, pending_cons, List.countP_append]
  omega

/-- What is pending after a command was pending before, or the command leads to it. -/
theorem mem_pending_step {l₁ l₂ : List (Thread Loc Instr)} {loc : Loc} {x : Instr}
    {pre rest : List Instr} (instr : Instr) (h : x ∈ pending (l₁ ++ ⟨loc, pre ++ rest⟩ :: l₂)) :
    x ∈ pre ∨ x ∈ pending (l₁ ++ ⟨loc, instr :: rest⟩ :: l₂) := by
  rw [mem_pending_at, List.mem_append] at h
  rw [mem_pending_at]
  rcases h with (hpre | hrest) | hothers
  · exact Or.inl hpre
  · exact Or.inr (Or.inl (List.mem_cons_of_mem _ hrest))
  · exact Or.inr (Or.inr hothers)

/-- Running a command removes it from the pending ones and adds the ones it leads to. -/
theorem countP_pending_step (l₁ l₂ : List (Thread Loc Instr)) (loc : Loc) (instr : Instr)
    (pre rest : List Instr) (p : Instr → Bool) :
    (pending (l₁ ++ ⟨loc, pre ++ rest⟩ :: l₂)).countP p + [instr].countP p =
      (pending (l₁ ++ ⟨loc, instr :: rest⟩ :: l₂)).countP p + pre.countP p := by
  have hcons : (instr :: rest).countP p = [instr].countP p + rest.countP p := by
    rw [← List.countP_append, List.singleton_append]
  rw [countP_pending_at, countP_pending_at, List.countP_append, hcons]
  omega

/-- Running a command takes away what it carries and adds what the ones it leads to carry. -/
theorem count_flatMap_pending_step {β : Type} [BEq β] (l₁ l₂ : List (Thread Loc Instr)) (loc : Loc)
    (instr : Instr) (pre rest : List Instr) (carried : Instr → List β) (x : β) :
    ((pending (l₁ ++ ⟨loc, pre ++ rest⟩ :: l₂)).flatMap carried).count x +
        (carried instr).count x =
      ((pending (l₁ ++ ⟨loc, instr :: rest⟩ :: l₂)).flatMap carried).count x +
        (pre.flatMap carried).count x := by
  simp only [pending_append, pending_cons, List.flatMap_append, List.flatMap_cons,
    List.count_append]
  omega

/-- Running a command takes away its weight and adds that of the ones it leads to. -/
theorem sum_pending_step (l₁ l₂ : List (Thread Loc Instr)) (loc : Loc) (instr : Instr)
    (pre rest : List Instr) (weight : Instr → ℕ) :
    ((pending (l₁ ++ ⟨loc, pre ++ rest⟩ :: l₂)).map weight).sum + weight instr =
      ((pending (l₁ ++ ⟨loc, instr :: rest⟩ :: l₂)).map weight).sum + (pre.map weight).sum := by
  simp only [pending_append, pending_cons, List.map_append, List.sum_append, List.map_cons,
    List.sum_cons]
  omega

/-- The only pending command gives way to the ones it leads to. -/
theorem pending_at_of_single {l₁ l₂ : List (Thread Loc Instr)} {loc : Loc}
    {instr : Instr} {rest : List Instr}
    (h : (pending (l₁ ++ ⟨loc, instr :: rest⟩ :: l₂)).length ≤ 1) (pre : List Instr) :
    pending (l₁ ++ ⟨loc, pre ++ rest⟩ :: l₂) = pre := by
  simp only [pending_append, pending_cons, List.length_append, List.length_cons] at h
  have hfirst : pending l₁ = [] := List.length_eq_zero_iff.mp (by omega)
  have hlast : pending l₂ = [] := List.length_eq_zero_iff.mp (by omega)
  have hrest : rest = [] := List.length_eq_zero_iff.mp (by omega)
  rw [pending_append, pending_cons, hfirst, hlast, hrest]
  simp

/-- Nothing is pending when every thread has finished. -/
theorem pending_eq_nil {threads : List (Thread Loc Instr)} (h : ∀ t ∈ threads, t.todo = []) :
    pending threads = [] :=
  List.flatMap_eq_nil_iff.mpr h

/-! ## A quantity held by one thread -/

variable {β : Type} (f : Instr → Option β)

/-- What the commands of a thread hold. -/
def held (t : Thread Loc Instr) : List β := t.todo.filterMap f

/-- What the threads hold together. -/
def heldAll (threads : List (Thread Loc Instr)) : List β := (pending threads).filterMap f

/-- At most one thread holds anything. -/
def HeldOnce (threads : List (Thread Loc Instr)) : Prop :=
  threads.countP (fun t => held f t ≠ []) ≤ 1

theorem heldAll_append (l l' : List (Thread Loc Instr)) :
    heldAll f (l ++ l') = heldAll f l ++ heldAll f l' := by
  simp [heldAll]

theorem heldAll_cons (t : Thread Loc Instr) (l : List (Thread Loc Instr)) :
    heldAll f (t :: l) = held f t ++ heldAll f l := by
  simp [heldAll, held]

theorem heldAll_at {l₁ l₂ : List (Thread Loc Instr)} {t : Thread Loc Instr} :
    heldAll f (l₁ ++ t :: l₂) = heldAll f l₁ ++ (held f t ++ heldAll f l₂) := by
  rw [heldAll_append, heldAll_cons]

theorem heldAll_eq_nil_of_countP {threads : List (Thread Loc Instr)}
    (h : threads.countP (fun t => held f t ≠ []) = 0) : heldAll f threads = [] := by
  induction threads with
  | nil => rfl
  | cons t threads ih =>
    rw [List.countP_cons] at h
    by_cases ht : held f t = []
    · rw [heldAll_cons, ht, List.nil_append]
      exact ih (by omega)
    · rw [if_pos (by simpa using ht)] at h
      omega

theorem countP_eq_zero_of_heldAll {threads : List (Thread Loc Instr)}
    (h : heldAll f threads = []) : threads.countP (fun t => held f t ≠ []) = 0 := by
  induction threads with
  | nil => rfl
  | cons t threads ih =>
    rw [heldAll_cons, List.append_eq_nil_iff] at h
    rw [List.countP_cons, ih h.2, h.1]
    rfl

variable {f} {l₁ l₂ : List (Thread Loc Instr)} {t t' : Thread Loc Instr}

/-- The thread that holds something holds everything. -/
theorem HeldOnce.alone (h : HeldOnce f (l₁ ++ t :: l₂)) (ht : held f t ≠ []) :
    heldAll f l₁ = [] ∧ heldAll f l₂ = [] := by
  unfold HeldOnce at h
  rw [List.countP_append, List.countP_cons, if_pos (by simpa using ht)] at h
  exact ⟨heldAll_eq_nil_of_countP f (by omega), heldAll_eq_nil_of_countP f (by omega)⟩

/-- A thread that does not start to hold something. -/
theorem HeldOnce.replace (h : HeldOnce f (l₁ ++ t :: l₂))
    (ht : held f t' ≠ [] → held f t ≠ []) : HeldOnce f (l₁ ++ t' :: l₂) := by
  unfold HeldOnce at h ⊢
  rw [List.countP_append, List.countP_cons] at h ⊢
  by_cases ht' : held f t' = []
  · rw [if_neg (by simpa using ht')]
    omega
  · rw [if_pos (by simpa using ht')]
    rwa [if_pos (by simpa using ht ht')] at h

/-- A thread may start to hold something when nothing is held. -/
theorem HeldOnce.of_nil (h : heldAll f (l₁ ++ l₂) = []) : HeldOnce f (l₁ ++ t :: l₂) := by
  have h0 := countP_eq_zero_of_heldAll f h
  unfold HeldOnce
  rw [List.countP_append] at h0
  rw [List.countP_append, List.countP_cons]
  split <;> omega

variable {loc : Loc} {instr : Instr} {pre rest : List Instr}

/-- A command that holds nothing and leads to nothing held. -/
theorem heldAll_step (h : f instr = none ∧ pre.filterMap f = []) :
    heldAll f (l₁ ++ ⟨loc, pre ++ rest⟩ :: l₂) = heldAll f (l₁ ++ ⟨loc, instr :: rest⟩ :: l₂) := by
  rw [heldAll_at, heldAll_at, held, held, List.filterMap_append, h.2,
    List.filterMap_cons_none h.1, List.nil_append]

theorem HeldOnce.step (honce : HeldOnce f (l₁ ++ ⟨loc, instr :: rest⟩ :: l₂))
    (h : f instr = none ∧ pre.filterMap f = []) : HeldOnce f (l₁ ++ ⟨loc, pre ++ rest⟩ :: l₂) := by
  refine honce.replace fun hne => ?_
  rw [held, List.filterMap_append, h.2] at hne
  rwa [held, List.filterMap_cons_none h.1]

end Pool

end Interleave
