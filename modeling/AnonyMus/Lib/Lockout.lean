import Mathlib.Algebra.Order.Field.Rat
import Mathlib.Data.List.TakeWhile
import Mathlib.Tactic.Linarith

/-!
# Lockout after failures in a window

A limiter that keeps the times of the failures it is told of, locks after too
many of them in a window, and forgets them on a success or when the lock has
expired. Guesses run concurrently: one is let in, fails, and is recorded at
three different times, and some are not recorded at all. The clock is any order with a
value in exact seconds; the limiter may compare its times less exactly.

* `Policy`, `Account` — the limiter of one client, and its guesses;
* `Account.outstanding` — the guesses that may still count in the window;
* `Account.Sound` — what holds as long as no guess is let in beyond the maximum;
* `Sound.tick`, `Sound.letIn`, … — it is kept, effect by effect;
* `Sound.bounded` — then no window without success has more failed guesses.
-/

/-- How many failures lock, as the limiter compares their times, and in which exact window. -/
structure Policy (T : Type) [LinearOrder T] where
  maxFailures : ℕ
  /-- A failure at `t` still counts `now`. -/
  near        : (t now : T) → Bool
  /-- The end of a lock. -/
  ends        : T → T
  /-- A time that the clock gets to. -/
  inTime      : T → Prop
  seconds     : T → ℚ
  shortWindow : ℚ
  nonneg      : 0 ≤ shortWindow
  mono        : Monotone seconds
  closing     : ∀ {t t' now now'}, t ≤ t' → now' ≤ now → near t now = true → near t' now' = true
  near_of_le  : ∀ {t now}, seconds now ≤ seconds t + shortWindow → near t now = true
  lasts       : ∀ {t}, inTime t → seconds t + shortWindow < seconds (ends t)

/-- A guess that has been made; a failure that is not `counted` is never told to the limiter. -/
inductive Attempt (T : Type)
  | failed (counted : Bool) (t : T)
  | succeeded (t : T)

variable {T : Type}

namespace Attempt

def time : Attempt T → T
  | failed _ t => t
  | succeeded t => t

def isSuccess : Attempt T → Bool
  | failed _ _ => false
  | succeeded _ => true

/-- When it failed. -/
def failure? : Attempt T → Option T
  | failed _ t => some t
  | succeeded _ => none

/-- When it failed, if the limiter is not told. -/
def unheard? : Attempt T → Option T
  | failed false t => some t
  | _ => none

end Attempt

/-- The limiter of one client, with its guesses: those in flight, those of them that have failed,
and the log, newest first. -/
structure Account (T : Type) where
  now         : T
  failures    : List T
  lockedUntil : Option T
  inFlight    : ℕ
  failing     : ℕ
  log         : List (Attempt T)

namespace Account

/-- The failed guesses. -/
def failedAt (log : List (Attempt T)) : List T := log.filterMap Attempt.failure?

/-- The failed guesses since the last success that the limiter is not told of. -/
def unheard (log : List (Attempt T)) : List T :=
  (log.takeWhile fun e => !e.isSuccess).filterMap Attempt.unheard?

variable [LinearOrder T] (P : Policy T) (a : Account T)

/-- How many of the times are not before `w`. -/
def since (w : ℚ) (ts : List T) : ℕ := ts.countP fun t => w ≤ P.seconds t

/-- The time lies in the exact window that begins at `w`. -/
def In (w : ℚ) (t : T) : Prop := w ≤ P.seconds t ∧ P.seconds t ≤ w + P.shortWindow

instance (w : ℚ) (t : T) : Decidable (In P w t) := inferInstanceAs (Decidable (_ ∧ _))

/-- How many of the times lie in the window that begins at `w`. -/
def within (w : ℚ) (ts : List T) : ℕ := ts.countP fun t => In P w t

/-- How many of the times still count `now`. -/
def recent (now : T) (ts : List T) : ℕ := ts.countP fun t => P.near t now

/-- No guess of the window that begins at `w` succeeded. -/
def Quiet (w : ℚ) (log : List (Attempt T)) : Prop :=
  ∀ e ∈ log, e.isSuccess = true → ¬ In P w e.time

instance (w : ℚ) (log : List (Attempt T)) : Decidable (Quiet P w log) :=
  inferInstanceAs (Decidable (∀ e ∈ log, e.isSuccess = true → ¬ In P w e.time))

/-- The recent failures, and the guesses in flight. -/
def outstanding : ℕ :=
  recent P a.now a.failures + a.inFlight + recent P a.now (unheard a.log)

/-! ## Effects -/

def tick (t : T) : Account T := { a with now := max a.now t }

/-- The lock has expired, and everything is forgotten. -/
def unlock : Account T := { a with failures := [], lockedUntil := none }

def letIn : Account T := { a with inFlight := a.inFlight + 1 }

/-- A guess in flight ends; `failed` if its check has failed. -/
def leave (failed : Bool) : Account T :=
  { a with inFlight := a.inFlight - 1, failing := a.failing - failed.toNat }

/-- A guess in flight fails. -/
def fail : Account T :=
  { a with failing := a.failing + 1, log := .failed true a.now :: a.log }

/-- The failures with a new one, without those before the window. -/
def pruned : List T := (a.failures ++ [a.now]).dropWhile fun t => !P.near t a.now

/-- The limiter is told of a failure. -/
def recordFailure : Account T :=
  { a with
    failures := a.pruned P
    lockedUntil :=
      if P.maxFailures ≤ (a.pruned P).length then some (P.ends a.now)
      else a.lockedUntil }

/-- The limiter is told of a success. -/
def recordSuccess : Account T := { a.unlock with log := .succeeded a.now :: a.log }

/-- A guess that the limiter does not know of fails. -/
def failUnheard : Account T := { a with log := .failed false a.now :: a.log }

/-- A guess that the limiter does not know of succeeds. -/
def succeedUnheard : Account T := { a with log := .succeeded a.now :: a.log }

/-! ## What is counted -/

section

variable {P a} {w : ℚ} {now t : T} {ts us : List T}

theorem since_append : since P w (ts ++ us) = since P w ts + since P w us := List.countP_append

theorem since_cons : since P w (t :: ts) = since P w ts + if w ≤ P.seconds t then 1 else 0 := by
  simp [since, List.countP_cons]

theorem since_eq_zero (h : ∀ t ∈ ts, P.seconds t < w) : since P w ts = 0 := by
  rw [since, List.countP_eq_zero]
  intro t ht
  simpa using h t ht

omit [LinearOrder T] in
/-- What is dropped from the front is not counted. -/
theorem countP_dropWhile {p q : T → Bool} (h : ∀ t, q t = true → p t = false) (ts : List T) :
    (ts.dropWhile q).countP p = ts.countP p := by
  induction ts with
  | nil => rfl
  | cons t ts ih =>
    by_cases hq : q t = true
    · rw [List.dropWhile_cons_of_pos hq, ih, List.countP_cons_of_neg (by simp [h t hq])]
    · rw [List.dropWhile_cons_of_neg hq]

theorem recent_mono {later : T} (h : now ≤ later) : recent P later ts ≤ recent P now ts :=
  List.countP_mono_left fun _ _ ht => P.closing le_rfl h ht

/-- As long as the window lasts, what is in it is recent. -/
theorem since_le_recent (h : P.seconds now ≤ w + P.shortWindow) :
    since P w ts ≤ recent P now ts := by
  apply List.countP_mono_left
  intro t _ ht
  simp only [decide_eq_true_eq] at ht
  exact P.near_of_le (by linarith)

theorem within_le_since : within P w ts ≤ since P w ts := by
  apply List.countP_mono_left
  intro t _ ht
  simp only [decide_eq_true_eq] at ht ⊢
  exact ht.1

theorem recent_pruned : recent P a.now (a.pruned P) = recent P a.now a.failures + 1 := by
  have hnow : P.near a.now a.now = true := P.near_of_le (by linarith [P.nonneg])
  have hdrop : recent P a.now (a.pruned P) = recent P a.now (a.failures ++ [a.now]) := by
    apply countP_dropWhile
    intro t ht
    exact (Bool.not_eq_true' _).mp ht
  rw [hdrop, recent, recent, List.countP_append, List.countP_singleton, if_pos hnow]

theorem since_pruned (h : P.seconds a.now ≤ w + P.shortWindow) :
    since P w (a.pruned P) = since P w (a.failures ++ [a.now]) := by
  apply countP_dropWhile
  intro t ht
  simp only [decide_eq_false_iff_not, not_le]
  by_contra hstarted
  rw [P.near_of_le (by linarith)] at ht
  cases ht

theorem mem_pruned (h : t ∈ a.pruned P) : t ∈ a.failures ∨ t = a.now := by
  have hmem := (List.dropWhile_sublist _).subset h
  simpa using hmem

omit [LinearOrder T] in
theorem exists_of_mem_failedAt {log : List (Attempt T)} (h : t ∈ failedAt log) :
    ∃ e ∈ log, e.time = t := by
  obtain ⟨e, he, hfailure⟩ := List.mem_filterMap.mp h
  rcases e with ⟨counted, t'⟩ | t'
  · exact ⟨_, he, Option.some.inj hfailure⟩
  · cases hfailure

/-- In order, all that is left is recent. -/
theorem length_pruned (hsorted : (a.pruned P).Pairwise (· ≤ ·)) :
    recent P a.now (a.pruned P) = (a.pruned P).length := by
  rw [recent, List.countP_eq_length]
  intro t ht
  rcases hq : a.pruned P with _ | ⟨first, rest⟩
  · rw [hq] at ht
    cases ht
  · have hfirst : P.near first a.now = true := by
      have hhead := List.head?_dropWhile_not (fun t => !P.near t a.now) (a.failures ++ [a.now])
      rw [← pruned, hq] at hhead
      simpa only [List.head?_cons, Bool.not_eq_false'] using hhead
    have hle : first ≤ t := by
      rw [hq] at ht hsorted
      rcases List.mem_cons.mp ht with rfl | ht
      · exact le_rfl
      · exact (List.pairwise_cons.mp hsorted).1 t ht
    exact P.closing hle le_rfl hfirst

end

/-! ## The invariant -/

/-- What holds as long as no guess is let in beyond the maximum. -/
structure Sound : Prop where
  inTime  : P.inTime a.now
  past    : ∀ t ∈ a.failures, t ≤ a.now
  sorted  : a.failures.Pairwise (· ≤ ·)
  logged  : ∀ e ∈ a.log, e.time ≤ a.now
  failing : a.failing ≤ a.inFlight
  few     : a.outstanding P ≤ P.maxFailures
  /-- When the limiter locks, nothing is in flight that it could forget with the rest. -/
  locked  : ∀ u ∈ a.lockedUntil, a.inFlight = 0 ∧
    ∃ l, P.inTime l ∧ u = P.ends l ∧ ∀ t ∈ a.failures, t ≤ l
  /-- In a window without success, a failed guess is recorded, or in flight, or unheard of. -/
  counted : ∀ w, P.seconds a.now ≤ w + P.shortWindow →
    (∀ e ∈ a.log, e.isSuccess = true → P.seconds e.time < w) →
      since P w (failedAt a.log) ≤ since P w a.failures + since P w (unheard a.log) + a.failing
  bounded : ∀ w, Quiet P w a.log → within P w (failedAt a.log) ≤ P.maxFailures

/-! ## Effects keep it -/

section

variable {P a}

theorem quiet_cons {w : ℚ} {e : Attempt T} {log : List (Attempt T)} (h : Quiet P w (e :: log)) :
    Quiet P w log := by
  intro e' he'
  exact h e' (List.mem_cons_of_mem _ he')

theorem outstanding_unlock_le : a.unlock.outstanding P ≤ a.outstanding P := by
  unfold outstanding unlock
  dsimp only
  rw [show recent P a.now [] = 0 from rfl]
  omega

/-- While a window lasts, its failed guesses are among the outstanding ones. -/
theorem within_le_max (hlogged : ∀ e ∈ a.log, e.time ≤ a.now) (hfailing : a.failing ≤ a.inFlight)
    (hfew : a.outstanding P ≤ P.maxFailures)
    (hcounted : ∀ w, P.seconds a.now ≤ w + P.shortWindow →
      (∀ e ∈ a.log, e.isSuccess = true → P.seconds e.time < w) →
      since P w (failedAt a.log) ≤ since P w a.failures + since P w (unheard a.log) + a.failing)
    {w : ℚ} (hlasts : P.seconds a.now ≤ w + P.shortWindow) (hquiet : Quiet P w a.log) :
    within P w (failedAt a.log) ≤ P.maxFailures := by
  have hbefore : ∀ e ∈ a.log, e.isSuccess = true → P.seconds e.time < w := by
    intro e he hsuccess
    by_contra hnot
    exact hquiet e he hsuccess ⟨not_lt.mp hnot, (P.mono (hlogged e he)).trans hlasts⟩
  have hwithin : within P w (failedAt a.log) ≤ since P w (failedAt a.log) := within_le_since
  have hsince := hcounted w hlasts hbefore
  have hfailures : since P w a.failures ≤ recent P a.now a.failures := since_le_recent hlasts
  have hunheard : since P w (unheard a.log) ≤ recent P a.now (unheard a.log) :=
    since_le_recent hlasts
  unfold outstanding at hfew
  omega

/-- Once a window is over, a new failed guess is not in it. -/
theorem within_cons_of_over {w : ℚ} {ts : List T} (hover : ¬ P.seconds a.now ≤ w + P.shortWindow) :
    within P w (a.now :: ts) = within P w ts := by
  apply List.countP_cons_of_neg
  rw [decide_eq_true_eq]
  exact fun hin => hover hin.2

end

namespace Sound

variable {P a}

theorem tick (h : a.Sound P) {t : T} (ht : P.inTime t) : (a.tick t).Sound P := by
  have hle : a.now ≤ max a.now t := le_max_left _ _
  exact
    { inTime  := by
        show P.inTime (max a.now t)
        rcases max_choice a.now t with hmax | hmax
        · rw [hmax]
          exact h.inTime
        · rw [hmax]
          exact ht
      past    := fun t ht => (h.past t ht).trans hle
      sorted  := h.sorted
      logged  := fun e he => (h.logged e he).trans hle
      failing := h.failing
      few     := by
        have hfailures : recent P (max a.now t) a.failures ≤ recent P a.now a.failures :=
          recent_mono hle
        have hunheard : recent P (max a.now t) (unheard a.log) ≤ recent P a.now (unheard a.log) :=
          recent_mono hle
        have hfew := h.few
        unfold outstanding at hfew
        unfold outstanding Account.tick
        dsimp only
        omega
      locked  := h.locked
      counted := fun w hw hbefore => h.counted w ((P.mono hle).trans hw) hbefore
      bounded := h.bounded }

/-- What the limiter forgets when a lock has expired is older than the window. -/
theorem unlock (h : a.Sound P) {u : T} (hu : a.lockedUntil = some u) (hexpired : u ≤ a.now) :
    a.unlock.Sound P where
  inTime  := h.inTime
  past    := fun t ht => absurd ht List.not_mem_nil
  sorted  := List.Pairwise.nil
  logged  := h.logged
  failing := h.failing
  few     := outstanding_unlock_le.trans h.few
  locked  := fun u hu => absurd hu (by simp [Account.unlock])
  counted := by
    intro w hw hbefore
    obtain ⟨-, l, hl, rfl, hold⟩ := h.locked u hu
    have hzero : since P w a.failures = 0 := by
      apply since_eq_zero
      intro t ht
      have hlasts : P.seconds a.now ≤ w + P.shortWindow := hw
      linarith [P.mono (hold t ht), P.lasts hl, P.mono hexpired]
    have hcounted := h.counted w hw hbefore
    rw [hzero] at hcounted
    exact hcounted.trans (by simp [Account.unlock, since])
  bounded := h.bounded

theorem letIn (h : a.Sound P) (hunlocked : a.lockedUntil = none)
    (hroom : a.outstanding P < P.maxFailures) : a.letIn.Sound P where
  inTime  := h.inTime
  past    := h.past
  sorted  := h.sorted
  logged  := h.logged
  failing := h.failing.trans (Nat.le_succ _)
  few     := by
    unfold outstanding at hroom
    unfold outstanding Account.letIn
    dsimp only
    omega
  locked  := by
    intro u hu
    rw [Account.letIn, hunlocked] at hu
    cases hu
  counted := h.counted
  bounded := h.bounded

/-- A guess that ends untold, or told as a success. -/
theorem leave (h : a.Sound P) (hlt : a.failing < a.inFlight) : (a.leave false).Sound P where
  inTime  := h.inTime
  past    := h.past
  sorted  := h.sorted
  logged  := h.logged
  failing := by
    simp only [Account.leave, Bool.toNat_false]
    omega
  few     := by
    have hfew := h.few
    unfold outstanding at hfew
    unfold outstanding Account.leave
    dsimp only
    omega
  locked  := by
    intro u hu
    obtain ⟨hnone, hold⟩ := h.locked u hu
    exact ⟨by simp [Account.leave, hnone], hold⟩
  counted := h.counted
  bounded := h.bounded

theorem fail (h : a.Sound P) (hlt : a.failing < a.inFlight) : a.fail.Sound P := by
  have hlogged : ∀ e ∈ a.fail.log, e.time ≤ a.now := by
    rintro e (_ | ⟨_, he⟩)
    · exact le_rfl
    · exact h.logged e he
  have hcounted : ∀ w, P.seconds a.now ≤ w + P.shortWindow →
      (∀ e ∈ a.fail.log, e.isSuccess = true → P.seconds e.time < w) →
      since P w (failedAt a.fail.log) ≤
        since P w a.failures + since P w (unheard a.fail.log) + (a.failing + 1) := by
    intro w hw hbefore
    have hold := h.counted w hw fun e he => hbefore e (List.mem_cons_of_mem _ he)
    have hnew : since P w (a.now :: failedAt a.log) ≤ since P w (failedAt a.log) + 1 := by
      rw [since_cons]
      split_ifs <;> omega
    calc since P w (failedAt a.fail.log) = since P w (a.now :: failedAt a.log) := rfl
      _ ≤ since P w (failedAt a.log) + 1 := hnew
      _ ≤ since P w a.failures + since P w (unheard a.log) + (a.failing + 1) := by omega
  exact
    { inTime  := h.inTime
      past    := h.past
      sorted  := h.sorted
      logged  := hlogged
      failing := hlt
      few     := h.few
      locked  := h.locked
      counted := hcounted
      bounded := by
        intro w hquiet
        by_cases hlasts : P.seconds a.now ≤ w + P.shortWindow
        · exact within_le_max (a := a.fail) hlogged hlt h.few hcounted hlasts hquiet
        · exact (within_cons_of_over hlasts).trans_le (h.bounded w (quiet_cons hquiet)) }

/-- A guess past the limiter, within the maximum. -/
theorem failUnheard (h : a.Sound P) (hroom : a.outstanding P < P.maxFailures) :
    a.failUnheard.Sound P := by
  have hlogged : ∀ e ∈ a.failUnheard.log, e.time ≤ a.now := by
    rintro e (_ | ⟨_, he⟩)
    · exact le_rfl
    · exact h.logged e he
  have hunheard : unheard a.failUnheard.log = a.now :: unheard a.log := rfl
  -- the guess itself is one more outstanding, and there was room for it
  have hfew : a.failUnheard.outstanding P ≤ P.maxFailures := by
    have hnew : recent P a.now (a.now :: unheard a.log) ≤ recent P a.now (unheard a.log) + 1 := by
      rw [recent, List.countP_cons]
      split_ifs <;> exact Nat.add_le_add_left (by omega) _
    unfold outstanding at hroom ⊢
    rw [hunheard]
    unfold Account.failUnheard
    dsimp only
    omega
  -- it is counted as unheard, since the limiter does not know of it
  have hcounted : ∀ w, P.seconds a.now ≤ w + P.shortWindow →
      (∀ e ∈ a.failUnheard.log, e.isSuccess = true → P.seconds e.time < w) →
      since P w (failedAt a.failUnheard.log) ≤
        since P w a.failures + since P w (unheard a.failUnheard.log) + a.failing := by
    intro w hw hbefore
    have hold := h.counted w hw fun e he => hbefore e (List.mem_cons_of_mem _ he)
    calc since P w (failedAt a.failUnheard.log) = since P w (a.now :: failedAt a.log) := rfl
      _ ≤ since P w a.failures + since P w (a.now :: unheard a.log) + a.failing := by
        rw [since_cons, since_cons]
        omega
  exact
    { inTime  := h.inTime
      past    := h.past
      sorted  := h.sorted
      logged  := hlogged
      failing := h.failing
      few     := hfew
      locked  := h.locked
      counted := hcounted
      bounded := by
        intro w hquiet
        -- a window that reaches back far enough is bounded by the maximum
        by_cases hlasts : P.seconds a.now ≤ w + P.shortWindow
        · exact within_le_max (a := a.failUnheard) hlogged h.failing hfew hcounted hlasts hquiet
        · exact (within_cons_of_over hlasts).trans_le (h.bounded w (quiet_cons hquiet)) }

/-- A success, told or untold, begins a new count. -/
theorem succeedUnheard (h : a.Sound P) : a.succeedUnheard.Sound P where
  inTime  := h.inTime
  past    := h.past
  sorted  := h.sorted
  logged  := by
    rintro e (_ | ⟨_, he⟩)
    · exact le_rfl
    · exact h.logged e he
  failing := h.failing
  few     := by
    have hfew := h.few
    unfold outstanding at hfew
    unfold outstanding Account.succeedUnheard
    dsimp only
    rw [show unheard (.succeeded a.now :: a.log) = [] from rfl,
      show recent P a.now [] = 0 from rfl]
    omega
  locked  := h.locked
  counted := by
    intro w hw hbefore
    -- what is logged is before the success, and so before the window
    have hstart : P.seconds a.now < w := hbefore (.succeeded a.now) List.mem_cons_self rfl
    have hnone : since P w (failedAt a.succeedUnheard.log) = 0 := by
      apply since_eq_zero
      intro t ht
      obtain ⟨e, he, rfl⟩ : ∃ e ∈ a.log, e.time = t := exists_of_mem_failedAt ht
      exact (P.mono (h.logged e he)).trans_lt hstart
    rw [hnone]
    exact Nat.zero_le _
  bounded := by
    intro w hquiet
    exact h.bounded w (quiet_cons hquiet)

/-- Everything is forgotten; what was in flight stays. -/
theorem recordSuccess (h : a.Sound P) : a.recordSuccess.Sound P := by
  have hsuccess := h.succeedUnheard
  exact
    { inTime  := h.inTime
      past    := fun t ht => absurd ht List.not_mem_nil
      sorted  := List.Pairwise.nil
      logged  := hsuccess.logged
      failing := h.failing
      few     := by
        have hfew := hsuccess.few
        unfold outstanding Account.succeedUnheard at hfew
        unfold outstanding Account.recordSuccess Account.unlock
        dsimp only at hfew ⊢
        rw [show recent P a.now [] = 0 from rfl]
        omega
      locked  := fun u hu => absurd hu (by simp [Account.recordSuccess, Account.unlock])
      counted := by
        intro w hw hbefore
        have hstart : P.seconds a.now < w := hbefore (.succeeded a.now) List.mem_cons_self rfl
        have hcounted := hsuccess.counted w hw hbefore
        have hzero : since P w a.succeedUnheard.failures = 0 := by
          apply since_eq_zero
          intro t ht
          exact (P.mono (h.past t ht)).trans_lt hstart
        rw [hzero] at hcounted
        exact hcounted.trans (by simp [Account.recordSuccess, Account.unlock, Account.succeedUnheard])
      bounded := hsuccess.bounded }

/-- A failure is recorded: the guess is not in flight any more, and recent. -/
theorem recordFailure (h : a.Sound P) {failed : Bool}
    (hlt : a.failing < a.inFlight + failed.toNat) (hin : 0 < a.inFlight) :
    ((a.leave failed).recordFailure P).Sound P := by
  have hsorted : (a.pruned P).Pairwise (· ≤ ·) := by
    refine List.Pairwise.sublist (List.dropWhile_sublist _) ?_
    rw [List.pairwise_append]
    refine ⟨h.sorted, List.pairwise_singleton _ _, ?_⟩
    intro t ht now hnow
    rw [List.mem_singleton.mp hnow]
    exact h.past t ht
  have hpast : ∀ t ∈ a.pruned P, t ≤ a.now := by
    intro t ht
    rcases mem_pruned ht with ht | rfl
    · exact h.past t ht
    · exact le_rfl
  have hfew : recent P a.now (a.pruned P) + (a.inFlight - 1) + recent P a.now (unheard a.log) ≤
      P.maxFailures := by
    have hfew := h.few
    unfold outstanding at hfew
    rw [recent_pruned]
    omega
  exact
    { inTime  := h.inTime
      past    := hpast
      sorted  := hsorted
      logged  := h.logged
      failing := by
        show a.failing - failed.toNat ≤ a.inFlight - 1
        omega
      few     := hfew
      locked  := by
        intro u hu
        have hlong : P.maxFailures ≤ (a.pruned P).length := by
          by_contra hshort
          -- the lock would be an old one, and the guess not in flight
          have hold : u ∈ a.lockedUntil := by
            rwa [Account.recordFailure, show (a.leave failed).pruned P = a.pruned P from rfl,
              if_neg hshort] at hu
          have hnone := (h.locked u hold).1
          omega
        have hu' : P.ends a.now = u := by
          rw [Account.recordFailure, show (a.leave failed).pruned P = a.pruned P from rfl,
            if_pos hlong] at hu
          exact Option.some.inj hu
        have hrecent := length_pruned hsorted
        refine ⟨?_, a.now, h.inTime, hu'.symm, hpast⟩
        show a.inFlight - 1 = 0
        omega
      counted := by
        intro w hw hbefore
        have hcounted := h.counted w hw hbefore
        show since P w (failedAt a.log) ≤
          since P w (a.pruned P) + since P w (unheard a.log) + (a.failing - failed.toNat)
        rw [since_pruned (show P.seconds a.now ≤ w + P.shortWindow from hw), since_append, since_cons]
        by_cases hstarted : w ≤ P.seconds a.now
        · rw [if_pos hstarted]
          have hone : failed.toNat ≤ 1 := Bool.toNat_le failed
          omega
        · have hzero : since P w (failedAt a.log) = 0 := by
            apply since_eq_zero
            intro t ht
            obtain ⟨e, he, rfl⟩ := exists_of_mem_failedAt ht
            exact (P.mono (h.logged e he)).trans_lt (not_le.mp hstarted)
          omega
      bounded := h.bounded }

end Sound

end Account
