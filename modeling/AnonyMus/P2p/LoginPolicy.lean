import AnonyMus.Lib.Window
import AnonyMus.P2p.Login

/-!
# P2P node — the policy of the login limiter

`_LoginRateLimiter` of `transports/p2p/routers/auth.py` as logins call it that come one
after the other: nothing is recorded for an address but right after `is_locked` has let
it pass.

* `LimiterCall`, `act` — the calls;
* `Reckoning` — in exact seconds, or in doubles as the limiter reckons;
* `lockouts` — what the policy says of a history: which failures lock an address;
* `Meets`, `meets_after` — what the limiter has of an address, and that calls keep it;
* `locked_iff` — an address is reported locked exactly as the policy says in doubles, and as if
  nobody else had called;
* `locked_beyond_window` — in exact seconds the policy says something else.
-/

namespace AnonyMus.P2p.LoginPolicy

open EStateM (after)
open Login
open Window

/-! ## Calls -/

/-- A call, and what `time.monotonic()` returns in it. -/
inductive LimiterCall
  | isLocked (clientIp : String) (now : Double)
  | recordFailure (clientIp : String) (now : Double)
  | recordSuccess (clientIp : String) (now : Double)

namespace LimiterCall

def clientIp : LimiterCall → String
  | isLocked clientIp _ | recordFailure clientIp _ | recordSuccess clientIp _ => clientIp

def now : LimiterCall → Double
  | isLocked _ now | recordFailure _ now | recordSuccess _ now => now

/-- A call that tells of an attempt. -/
def records : LimiterCall → Bool
  | isLocked _ _ => false
  | _ => true

def run (call : LimiterCall) (limiter : LoginRateLimiter) : Bool × LoginRateLimiter :=
  match call with
  | isLocked clientIp now => limiter.isLocked clientIp now
  | recordFailure clientIp now => (false, limiter.recordFailure clientIp now)
  | recordSuccess clientIp _ => (false, limiter.recordSuccess clientIp)

/-- The time of a failure of the address. -/
def failure? (ip : String) : LimiterCall → Option Double
  | recordFailure clientIp now => if clientIp = ip then some now else none
  | _ => none

def isSuccess (ip : String) : LimiterCall → Bool
  | recordSuccess clientIp _ => clientIp = ip
  | _ => false

end LimiterCall

def act (call : LimiterCall) : EStateM Empty LoginRateLimiter Bool := modifyGet call.run

def limiterAfter (calls : List LimiterCall) : LoginRateLimiter :=
  after act calls ⟨Dict.empty, Dict.empty⟩

/-- As in `login`: an attempt is recorded when the call before it that concerns its address
is an `is_locked` that has returned false. -/
def Guarded (calls : List LimiterCall) : Prop :=
  ∀ done call todo, calls = done ++ call :: todo → call.records = true →
    ∃ early now late, done = early ++ .isLocked call.clientIp now :: late ∧
      (∀ other ∈ late, other.clientIp ≠ call.clientIp) ∧
        ((limiterAfter early).isLocked call.clientIp now).1 = false

/-- `time.monotonic()` counts up, in nanoseconds of 64 bits. -/
structure Timed (calls : List LimiterCall) : Prop where
  inTime : ∀ call ∈ calls, call.now.toRat < 2 ^ 34
  sorted : calls.Pairwise fun call call' => call.now ≤ call'.now

/-! ## The policy -/

/-- How a policy compares times: whether a failure at `g` lies in the window that ends at `f`, and
whether a lockout from `l` has not ended at `t`. -/
structure Reckoning where
  near : (g f : Double) → Bool
  runs : (l t : Double) → Bool

/-- In exact seconds. -/
def exact : Reckoning where
  near g f := f.toRat - shortWindow.toRat ≤ g.toRat
  runs l t := t.toRat < l.toRat + lockoutDuration.toRat

/-- In doubles. -/
def rounded : Reckoning where
  near g f := f - g ≤ shortWindow
  runs l t := t < l + lockoutDuration

/-- The failures of an address since its last success, latest first as the history. -/
def failuresSince (ip : String) (past : List LimiterCall) : List Double :=
  (past.takeWhile fun call => !call.isSuccess ip).filterMap (LimiterCall.failure? ip)

/-- How many of the failures up to `f` count at `f`: those in the closed window that ends
there, since the last success and after the end of every lockout. -/
def counted (K : Reckoning) (ip : String) (past : List LimiterCall) (lockouts : List Double)
    (f : Double) : ℕ :=
  (failuresSince ip past).countP fun g =>
    (K.near g f ∧ g ≤ f) ∧ ∀ l ∈ lockouts, K.runs l g = false

/-- The failures of a history, latest first, that lock the address. -/
def lockouts (K : Reckoning) (ip : String) : List LimiterCall → List Double
  | [] => []
  | call :: past =>
    match call.failure? ip with
    | some f =>
      if maxFailuresShort ≤ counted K ip (call :: past) (lockouts K ip past) f then
        f :: lockouts K ip past
      else lockouts K ip past
    | none => lockouts K ip past

/-- What the policy says of an address at the time `t`. -/
def Locked (K : Reckoning) (ip : String) (past : List LimiterCall) (t : Double) : Prop :=
  ∃ f ∈ lockouts K ip past, f ≤ t ∧ K.runs f t = true

instance (K : Reckoning) (ip : String) (past : List LimiterCall) (t : Double) :
    Decidable (Locked K ip past t) :=
  inferInstanceAs (Decidable (∃ f ∈ lockouts K ip past, _))

/-! ## What the limiter has of an address -/

/-- `now - t <= SHORT_WINDOW`. -/
def Near (t now : Double) : Prop := now - t ≤ shortWindow

instance : DecidableRel Near := fun t now => inferInstanceAs (Decidable (now - t ≤ shortWindow))

theorem closing_near : Closing Near := by
  intro w w' t t' hw ht hnear
  exact (Double.sub_mono ht hw).trans hnear

/-- The failures that count from now on. -/
def standing (ip : String) (past : List LimiterCall) : List Double :=
  (failuresSince ip past).filter fun g => ∀ l ∈ lockouts rounded ip past, l + lockoutDuration ≤ g

/-- Of an address the limiter has the end of its last lockout, until it is asked for it
later, or else as many failures as still count. -/
structure Meets (ip : String) (past : List LimiterCall) (now : Double) (limiter : LoginRateLimiter) :
    Prop where
  locked   : ∀ u, limiter.lockedUntil.get? ip = some u →
    standing ip past = [] ∧ ∃ l ∈ lockouts rounded ip past, u = l + lockoutDuration ∧
      ∀ l' ∈ lockouts rounded ip past, l' ≤ l
  unlocked : limiter.lockedUntil.get? ip = none →
    (∀ l ∈ lockouts rounded ip past, l + lockoutDuration ≤ now) ∧
      ((limiter.failures.get? ip).getD []).Pairwise (· ≤ ·) ∧
        (∀ g ∈ (limiter.failures.get? ip).getD [], g ≤ now) ∧
          ∀ later, now ≤ later →
            recent Near later ((limiter.failures.get? ip).getD []) =
              recent Near later (standing ip past)

section

variable {ip : String} {past : List LimiterCall} {call : LimiterCall} {now t : Double}
  {limiter : LoginRateLimiter}

@[simp] theorem rounded_runs {l : Double} : rounded.runs l t = false ↔ l + lockoutDuration ≤ t := by
  unfold rounded
  rw [decide_eq_false_iff_not, not_lt]

theorem near_self (t : Double) : Near t t := by
  unfold Near
  rw [Double.sub_self]
  exact Double.zero_le _

/-- A lockout does not end at once. -/
theorem lt_lockEnd (ht : t.toRat < 2 ^ 34) : t < t + lockoutDuration := by
  have hlasts : t.toRat + 300 < (t + lockoutDuration).toRat := policy.lasts ht
  refine lt_of_not_ge fun hle => ?_
  linarith [Double.toRat_mono hle]

theorem now_of_failure? {f : Double} (h : call.failure? ip = some f) :
    call = .recordFailure ip f := by
  cases call with
  | isLocked | recordSuccess => cases h
  | recordFailure clientIp now =>
    obtain ⟨rfl, hf⟩ := Option.ite_none_right_eq_some.mp h
    rw [Option.some.inj hf]

theorem mem_of_mem_failuresSince {g : Double} (h : g ∈ failuresSince ip past) :
    ∃ call ∈ past, call.now = g := by
  obtain ⟨call, hcall, hg⟩ := List.mem_filterMap.mp h
  refine ⟨call, (List.takeWhile_prefix _).subset hcall, ?_⟩
  rw [now_of_failure? hg]
  rfl

theorem mem_of_mem_lockouts {l : Double} (h : l ∈ lockouts rounded ip past) :
    ∃ call ∈ past, call.now = l := by
  induction past with
  | nil => cases h
  | cons call past ih =>
    have hold : l ∈ lockouts rounded ip past → ∃ call' ∈ call :: past, call'.now = l := fun h =>
      let ⟨call', hmem, hl⟩ := ih h
      ⟨call', List.mem_cons_of_mem call hmem, hl⟩
    unfold lockouts at h
    split at h
    · rename_i f hf
      split_ifs at h
      · rcases List.mem_cons.mp h with rfl | h
        · exact ⟨call, List.mem_cons_self, by rw [now_of_failure? hf]; rfl⟩
        · exact hold h
      · exact hold h
    · exact hold h

/-- A call that neither fails nor succeeds. -/
theorem history_skip (hfailure : call.failure? ip = none) (hsuccess : call.isSuccess ip = false) :
    lockouts rounded ip (call :: past) = lockouts rounded ip past ∧
      standing ip (call :: past) = standing ip past := by
  have hlockouts : lockouts rounded ip (call :: past) = lockouts rounded ip past := by
    rw [lockouts, hfailure]
  refine ⟨hlockouts, ?_⟩
  unfold standing failuresSince
  rw [hlockouts, List.takeWhile_cons_of_pos (by simp [hsuccess]), List.filterMap_cons_none hfailure]

/-- A call for another address. -/
theorem run_other (h : call.clientIp ≠ ip) :
    (call.run limiter).2.failures.get? ip = limiter.failures.get? ip ∧
      (call.run limiter).2.lockedUntil.get? ip = limiter.lockedUntil.get? ip := by
  cases call with
  | isLocked clientIp now =>
    have hne : ip ≠ clientIp := Ne.symm h
    unfold LimiterCall.run LoginRateLimiter.isLocked
    dsimp only
    split_ifs
    · exact ⟨rfl, rfl⟩
    · exact ⟨(Dict.get?_erase ..).trans (if_neg hne), (Dict.get?_erase ..).trans (if_neg hne)⟩
    · exact ⟨rfl, rfl⟩
  | recordFailure clientIp now =>
    have hne : ip ≠ clientIp := Ne.symm h
    unfold LimiterCall.run LoginRateLimiter.recordFailure
    dsimp only
    refine ⟨(Dict.get?_insert ..).trans (if_neg hne), ?_⟩
    split_ifs
    · exact (Dict.get?_insert ..).trans (if_neg hne)
    · rfl
  | recordSuccess clientIp now =>
    have hne : ip ≠ clientIp := Ne.symm h
    exact ⟨(Dict.get?_erase ..).trans (if_neg hne), (Dict.get?_erase ..).trans (if_neg hne)⟩

theorem Meets.later (h : Meets ip past now limiter) (hle : now ≤ t) : Meets ip past t limiter := by
  refine ⟨h.locked, fun hnone => ?_⟩
  obtain ⟨hexpired, hsorted, hnow, hrecent⟩ := h.unlocked hnone
  exact ⟨fun l hl => (hexpired l hl).trans hle, hsorted, fun g hg => (hnow g hg).trans hle,
    fun later hlater => hrecent later (hle.trans hlater)⟩

/-- The history is the same to the address, and so is the limiter. -/
theorem Meets.congr {past' : List LimiterCall} {limiter' : LoginRateLimiter}
    (h : Meets ip past now limiter)
    (hpast : lockouts rounded ip past' = lockouts rounded ip past ∧
      standing ip past' = standing ip past)
    (hlimiter : limiter'.failures.get? ip = limiter.failures.get? ip ∧
      limiter'.lockedUntil.get? ip = limiter.lockedUntil.get? ip) :
    Meets ip past' now limiter' := by
  constructor
  · rw [hpast.1, hpast.2, hlimiter.2]
    exact h.locked
  · rw [hpast.1, hpast.2, hlimiter.1, hlimiter.2]
    exact h.unlocked

theorem meets_other (h : Meets ip past now limiter) (hne : call.clientIp ≠ ip) :
    Meets ip (call :: past) now (call.run limiter).2 := by
  refine h.congr (history_skip ?_ ?_) (run_other hne)
  · cases hfailure : call.failure? ip with
    | none => rfl
    | some f =>
      rw [now_of_failure? hfailure] at hne
      exact absurd rfl hne
  · cases call with
    | isLocked | recordFailure => rfl
    | recordSuccess clientIp now => exact decide_eq_false hne

/-- What `is_locked` does: the lock stands, or nothing is left of it. -/
theorem isLocked_of_meets (h : Meets ip past t limiter)
    (hpast : ∀ call ∈ past, call.now ≤ t) :
    ((limiter.isLocked ip t).1 = true ↔ Locked rounded ip past t) ∧
      Meets ip past t (limiter.isLocked ip t).2 ∧
        ((limiter.isLocked ip t).1 = false →
          (limiter.isLocked ip t).2.lockedUntil.get? ip = none) := by
  cases hu : limiter.lockedUntil.get? ip with
  | none =>
    have heq : limiter.isLocked ip t = (false, limiter) := by
      simp [LoginRateLimiter.isLocked, hu, not_lt.mpr (Double.zero_le t)]
    rw [heq]
    refine ⟨iff_of_false Bool.false_ne_true ?_, h, fun _ => hu⟩
    rintro ⟨f, hf, -, ht⟩
    exact absurd ((h.unlocked hu).1 f hf) (not_le.mpr (of_decide_eq_true ht))
  | some u =>
    obtain ⟨hstanding, l, hl, rfl, hlast⟩ := h.locked u hu
    obtain ⟨call, hcall, hl'⟩ := mem_of_mem_lockouts hl
    have hle := hpast call hcall
    rw [hl'] at hle
    by_cases ht : t < l + lockoutDuration
    · have heq : limiter.isLocked ip t = (true, limiter) := by
        simp [LoginRateLimiter.isLocked, hu, ht]
      rw [heq]
      exact ⟨iff_of_true rfl ⟨l, hl, hle, decide_eq_true ht⟩, h,
        fun hopen => Bool.noConfusion hopen⟩
    · have hended : ∀ l' ∈ lockouts rounded ip past, l' + lockoutDuration ≤ t := fun l' hl' =>
        (Double.add_mono (hlast l' hl') _).trans (not_lt.mp ht)
      have heq : limiter.isLocked ip t =
          (false, ⟨limiter.failures.erase ip, limiter.lockedUntil.erase ip⟩) := by
        simp [LoginRateLimiter.isLocked, hu, ht, lockEnd_ne_zero]
      rw [heq]
      refine ⟨iff_of_false Bool.false_ne_true ?_, ⟨?_, ?_⟩, fun _ => by simp [Dict.get?_erase]⟩
      · rintro ⟨f, hf, -, hlt⟩
        exact absurd (hended f hf) (not_le.mpr (of_decide_eq_true hlt))
      · intro u hu'
        rw [Dict.get?_erase, if_pos rfl] at hu'
        cases hu'
      · intro _
        rw [Dict.get?_erase, if_pos rfl, hstanding]
        exact ⟨hended, List.Pairwise.nil, List.forall_mem_nil _, fun _ _ => rfl⟩

theorem meets_recordSuccess (h : Meets ip past t limiter)
    (hunlocked : limiter.lockedUntil.get? ip = none) :
    Meets ip (.recordSuccess ip t :: past) t (limiter.recordSuccess ip) := by
  have hstanding : standing ip (.recordSuccess ip t :: past) = [] := by
    unfold standing failuresSince
    rw [List.takeWhile_cons_of_neg (by simp [LimiterCall.isSuccess])]
    rfl
  constructor
  · intro u hu
    have hget : (limiter.lockedUntil.erase ip).get? ip = some u := hu
    rw [Dict.get?_erase, if_pos rfl] at hget
    cases hget
  · intro _
    have hfailures : (limiter.recordSuccess ip).failures.get? ip = none :=
      (Dict.get?_erase ..).trans (if_pos rfl)
    rw [hfailures, hstanding]
    exact ⟨(h.unlocked hunlocked).1, List.Pairwise.nil, nofun, fun _ _ => rfl⟩

theorem failuresSince_recordFailure :
    failuresSince ip (.recordFailure ip t :: past) = t :: failuresSince ip past := by
  unfold failuresSince
  rw [List.takeWhile_cons_of_pos (by rfl), List.filterMap_cons]
  simp [LimiterCall.failure?]

/-- What counts at a new failure is that failure and the recent ones that stand. -/
theorem counted_recordFailure (hpast : ∀ call ∈ past, call.now ≤ t)
    (hexpired : ∀ l ∈ lockouts rounded ip past, l + lockoutDuration ≤ t) :
    counted rounded ip (.recordFailure ip t :: past) (lockouts rounded ip past) t =
      recent Near t (standing ip past) + 1 := by
  have hself : rounded.near t t ∧ t ≤ t := ⟨decide_eq_true (near_self t), le_rfl⟩
  simp only [counted, rounded_runs]
  rw [failuresSince_recordFailure, List.countP_cons,
    if_pos (decide_eq_true ⟨hself, hexpired⟩), recent, standing, List.countP_filter]
  refine congrArg (· + 1) (List.countP_congr fun g hg => ?_)
  obtain ⟨call, hcall, rfl⟩ := mem_of_mem_failuresSince hg
  simp only [Bool.and_eq_true, decide_eq_true_eq, hpast call hcall, and_true]
  exact and_congr_left' decide_eq_true_iff

/-- What `record_failure` leaves in the queue of the address, which is in order. -/
theorem recordFailure_eq {q : List Double} (hq : (limiter.failures.get? ip).getD [] = q)
    (hsorted : (q ++ [t]).Pairwise (· ≤ ·)) :
    limiter.recordFailure ip t =
      ⟨limiter.failures.insert ip ((q ++ [t]).filter fun g => Near g t),
        if maxFailuresShort ≤ recent Near t q + 1 then
          limiter.lockedUntil.insert ip (t + lockoutDuration)
        else limiter.lockedUntil⟩ := by
  have hpruned : ((q ++ [t]).dropWhile fun g => shortWindow < t - g) =
      (q ++ [t]).filter fun g => Near g t := by
    rw [← dropWhile_eq_filter closing_near hsorted]
    congr 1
    funext g
    exact decide_eq_decide.mpr not_le.symm
  have hlength : ((q ++ [t]).filter fun g => Near g t).length = recent Near t q + 1 := by
    rw [← List.countP_eq_length_filter, List.countP_append, List.countP_singleton,
      if_pos (decide_eq_true (near_self t))]
    rfl
  unfold LoginRateLimiter.recordFailure
  dsimp only
  rw [hq, hpruned, hlength]

theorem meets_recordFailure (h : Meets ip past t limiter) (hpast : ∀ call ∈ past, call.now ≤ t)
    (htime : t.toRat < 2 ^ 34) (hunlocked : limiter.lockedUntil.get? ip = none) :
    Meets ip (.recordFailure ip t :: past) t (limiter.recordFailure ip t) := by
  obtain ⟨hexpired, hsorted, hnow, hrecent⟩ := h.unlocked hunlocked
  generalize hq : (limiter.failures.get? ip).getD [] = q at hsorted hnow hrecent
  have hsorted' : (q ++ [t]).Pairwise (· ≤ ·) := by
    refine List.pairwise_append.mpr ⟨hsorted, List.pairwise_singleton _ _, ?_⟩
    rintro g hg _ ht
    rw [List.mem_singleton.mp ht]
    exact hnow g hg
  have hlockouts : lockouts rounded ip (.recordFailure ip t :: past) =
      if maxFailuresShort ≤ recent Near t q + 1 then t :: lockouts rounded ip past
      else lockouts rounded ip past := by
    rw [lockouts, hrecent t le_rfl, ← counted_recordFailure hpast hexpired]
    simp [LimiterCall.failure?]
  have hduration : t < t + lockoutDuration := lt_lockEnd htime
  rw [recordFailure_eq hq hsorted']
  by_cases hfull : maxFailuresShort ≤ recent Near t q + 1
  · rw [if_pos hfull] at hlockouts ⊢
    constructor
    · intro u hu
      rw [Dict.get?_insert, if_pos rfl] at hu
      obtain rfl := Option.some.inj hu
      rw [hlockouts]
      refine ⟨?_, t, List.mem_cons_self, rfl, fun l hl => ?_⟩
      · -- no failure comes after the end of this lockout yet
        unfold standing
        rw [hlockouts, failuresSince_recordFailure, List.filter_eq_nil_iff]
        intro g hg
        rw [decide_eq_true_iff]
        intro hall
        have hend := hall t List.mem_cons_self
        rcases List.mem_cons.mp hg with rfl | hg
        · exact absurd hend (not_le.mpr hduration)
        · obtain ⟨call, hcall, rfl⟩ := mem_of_mem_failuresSince hg
          exact absurd (hend.trans (hpast call hcall)) (not_le.mpr hduration)
      · rcases List.mem_cons.mp hl with rfl | hl
        · exact le_rfl
        · obtain ⟨call, hcall, rfl⟩ := mem_of_mem_lockouts hl
          exact hpast call hcall
    · intro hnone
      rw [Dict.get?_insert, if_pos rfl] at hnone
      cases hnone
  · rw [if_neg hfull] at hlockouts ⊢
    constructor
    · intro u hu
      rw [hunlocked] at hu
      cases hu
    · intro _
      rw [Dict.get?_insert, if_pos rfl, Option.getD_some, hlockouts]
      refine ⟨hexpired, hsorted'.sublist List.filter_sublist, fun g hg => ?_, fun later hlater => ?_⟩
      · rcases List.mem_append.mp (List.mem_filter.mp hg).1 with hg | hg
        · exact hnow g hg
        · exact le_of_eq (List.mem_singleton.mp hg)
      · have hstanding : standing ip (.recordFailure ip t :: past) = t :: standing ip past := by
          unfold standing
          rw [hlockouts, failuresSince_recordFailure]
          refine List.filter_cons_of_pos ?_
          exact decide_eq_true hexpired
        rw [recent_filter closing_near hlater, recent_append, hrecent later hlater, hstanding,
          Nat.add_comm, ← recent_append, List.singleton_append]

theorem limiterAfter_append (calls calls' : List LimiterCall) :
    limiterAfter (calls ++ calls') = after act calls' (limiterAfter calls) :=
  EStateM.after_append ..

/-- Calls for other addresses. -/
theorem after_others {calls : List LimiterCall} (h : ∀ call ∈ calls, call.clientIp ≠ ip) :
    (after act calls limiter).lockedUntil.get? ip = limiter.lockedUntil.get? ip := by
  induction calls generalizing limiter with
  | nil => rfl
  | cons call calls ih =>
    obtain ⟨hcall, hcalls⟩ := List.forall_mem_cons.mp h
    exact (ih hcalls).trans (run_other hcall).2

/-- As long as every attempt is guarded, the limiter meets the policy. -/
theorem meets_after {calls : List LimiterCall} (hguarded : Guarded calls) (htimed : Timed calls)
    (ip : String) {done todo : List LimiterCall} (hsplit : calls = done ++ todo)
    (hnow : ∀ call ∈ done, call.now ≤ now) : Meets ip done.reverse now (limiterAfter done) := by
  -- over the length: what is recorded is guarded by an earlier call
  induction hn : done.length using Nat.strong_induction_on generalizing done todo now with
  | _ n ih =>
    subst hn
    rcases List.eq_nil_or_concat done with rfl | ⟨early, call, rfl⟩
    · exact ⟨nofun, fun _ => ⟨nofun, List.Pairwise.nil, nofun, fun _ _ => rfl⟩⟩
    have hprefix : ∀ {early' late : List LimiterCall} {t : Double}, early = early' ++ late →
        (∀ call ∈ early', call.now ≤ t) → Meets ip early'.reverse t (limiterAfter early') := by
      rintro early' late t rfl ht
      have hlonger : calls = early' ++ (late ++ call :: todo) := by
        rw [hsplit]
        simp
      exact ih early'.length (by simp) hlonger ht rfl
    rw [List.concat_eq_append] at hsplit hnow ⊢
    have hsorted := htimed.sorted
    rw [hsplit, List.append_assoc] at hsorted
    have hpast : ∀ call' ∈ early, call'.now ≤ call.now := fun call' hcall' =>
      (List.pairwise_append.mp hsorted).2.2 call' hcall' call (by simp)
    have hbefore := hprefix (List.append_nil early).symm hpast
    have hle : call.now ≤ now := hnow call (by simp)
    rw [List.reverse_append, List.reverse_singleton, List.singleton_append, limiterAfter_append]
    refine Meets.later ?_ hle
    show Meets ip (call :: early.reverse) call.now (call.run (limiterAfter early)).2
    by_cases hip : call.clientIp = ip
    swap
    · exact meets_other hbefore hip
    subst hip
    have hreverse : ∀ call' ∈ early.reverse, call'.now ≤ call.now :=
      fun call' hcall' => hpast call' (List.mem_reverse.mp hcall')
    -- an attempt that is recorded finds no lock
    have hunlocked : call.records = true →
        (limiterAfter early).lockedUntil.get? call.clientIp = none := by
      intro hrecords
      obtain ⟨early', t, late, rfl, hlate, hpassed⟩ :=
        hguarded early call todo (by rw [hsplit, List.append_assoc]; rfl) hrecords
      have hsorted' := (List.pairwise_append.mp hsorted).1
      have hmeets := hprefix rfl fun call' hcall' =>
        (List.pairwise_append.mp hsorted').2.2 call' hcall' _ List.mem_cons_self
      rw [limiterAfter_append, EStateM.after_cons, after_others hlate]
      refine (isLocked_of_meets hmeets fun call' hcall' => ?_).2.2 hpassed
      have hmem := List.mem_reverse.mp hcall'
      exact (List.pairwise_append.mp hsorted').2.2 call' hmem _ List.mem_cons_self
    cases call with
    | isLocked clientIp t =>
      exact (isLocked_of_meets hbefore hreverse).2.1.congr (history_skip rfl rfl) ⟨rfl, rfl⟩
    | recordFailure clientIp t =>
      have htime : t.toRat < 2 ^ 34 := htimed.inTime (.recordFailure clientIp t) (by simp [hsplit])
      exact meets_recordFailure hbefore hreverse htime (hunlocked rfl)
    | recordSuccess clientIp t => exact meets_recordSuccess hbefore (hunlocked rfl)

/-- Two limiters that have the same of an address. -/
def Agree (ip : String) (limiter limiter' : LoginRateLimiter) : Prop :=
  limiter.failures.get? ip = limiter'.failures.get? ip ∧
    limiter.lockedUntil.get? ip = limiter'.lockedUntil.get? ip

theorem Agree.run {limiter' : LoginRateLimiter} (h : Agree ip limiter limiter')
    (hip : call.clientIp = ip) :
    (call.run limiter).1 = (call.run limiter').1 ∧
      Agree ip (call.run limiter).2 (call.run limiter').2 := by
  have herased : Agree ip ⟨limiter.failures.erase ip, limiter.lockedUntil.erase ip⟩
      ⟨limiter'.failures.erase ip, limiter'.lockedUntil.erase ip⟩ := by
    unfold Agree
    simp only [Dict.get?_erase, if_true, and_self]
  cases call with
  | isLocked clientIp now =>
    have hip : clientIp = ip := hip
    subst hip
    unfold LimiterCall.run LoginRateLimiter.isLocked
    dsimp only
    rw [h.2]
    split_ifs
    · exact ⟨rfl, h⟩
    · exact ⟨rfl, herased⟩
    · exact ⟨rfl, h⟩
  | recordFailure clientIp now =>
    have hip : clientIp = ip := hip
    subst hip
    refine ⟨rfl, ?_, ?_⟩
    · unfold LimiterCall.run LoginRateLimiter.recordFailure
      dsimp only
      rw [Dict.get?_insert, Dict.get?_insert, if_pos rfl, if_pos rfl, h.1]
    · unfold LimiterCall.run LoginRateLimiter.recordFailure
      dsimp only
      rw [h.1]
      split_ifs
      · rw [Dict.get?_insert, Dict.get?_insert, if_pos rfl, if_pos rfl]
      · exact h.2
  | recordSuccess clientIp now =>
    have hip : clientIp = ip := hip
    subst hip
    exact ⟨rfl, herased⟩

/-- What the limiter has of an address depends on the calls for it only. -/
theorem agree_alone (ip : String) (calls : List LimiterCall) :
    Agree ip (limiterAfter calls)
      (limiterAfter (calls.filter fun call => call.clientIp = ip)) := by
  induction calls using List.reverseRecOn with
  | nil => exact ⟨rfl, rfl⟩
  | append_singleton calls call ih =>
    rw [List.filter_append, limiterAfter_append, limiterAfter_append]
    by_cases hip : call.clientIp = ip
    · rw [List.filter_cons, if_pos (decide_eq_true hip)]
      exact (ih.run hip).2
    · rw [List.filter_cons, if_neg (by simpa using hip)]
      exact ⟨(run_other hip).1.trans ih.1, (run_other hip).2.trans ih.2⟩

/-- An address is reported locked exactly when the policy says so, and as if there were
no other. -/
theorem locked_iff {calls : List LimiterCall} (hguarded : Guarded calls) (htimed : Timed calls)
    {done todo : List LimiterCall} {ip : String} {t : Double}
    (hsplit : calls = done ++ .isLocked ip t :: todo) :
    (((limiterAfter done).isLocked ip t).1 = true ↔ Locked rounded ip done.reverse t) ∧
      ((limiterAfter done).isLocked ip t).1 =
        ((limiterAfter (done.filter fun call => call.clientIp = ip)).isLocked ip t).1 := by
  have hsorted := htimed.sorted
  rw [hsplit] at hsorted
  have hpast : ∀ call ∈ done, call.now ≤ t := fun call hcall =>
    (List.pairwise_append.mp hsorted).2.2 call hcall _ List.mem_cons_self
  have hmeets := meets_after hguarded htimed ip hsplit hpast
  constructor
  · exact (isLocked_of_meets hmeets fun call hcall => hpast call (List.mem_reverse.mp hcall)).1
  · have hip : (LimiterCall.isLocked ip t).clientIp = ip := rfl
    exact ((agree_alone ip done).run hip).1

theorem Guarded.snoc {calls : List LimiterCall} (h : Guarded calls)
    (hcall : call.records = true → ∃ early now late,
      calls = early ++ .isLocked call.clientIp now :: late ∧
        (∀ other ∈ late, other.clientIp ≠ call.clientIp) ∧
          ((limiterAfter early).isLocked call.clientIp now).1 = false) :
    Guarded (calls ++ [call]) := by
  intro done call' todo hsplit hrecords
  rcases List.eq_nil_or_concat todo with rfl | ⟨todo, last, rfl⟩
  · obtain ⟨rfl, hlast⟩ := List.append_inj' hsplit rfl
    obtain rfl := List.singleton_inj.mp hlast
    exact hcall hrecords
  · rw [List.concat_eq_append, ← List.cons_append, ← List.append_assoc] at hsplit
    exact h done call' todo (List.append_inj' hsplit rfl).1 hrecords

theorem Guarded.ask {calls : List LimiterCall} (h : Guarded calls) (ip : String) (t : Double) :
    Guarded (calls ++ [.isLocked ip t]) := by
  refine h.snoc fun hrecords => ?_
  cases hrecords

/-- A login that fails. -/
theorem Guarded.attempt {calls : List LimiterCall} (h : Guarded calls)
    (hpassed : ((limiterAfter calls).isLocked ip now).1 = false) (t : Double) :
    Guarded (calls ++ [.isLocked ip now] ++ [.recordFailure ip t]) :=
  (h.ask ip now).snoc fun _ => ⟨calls, now, [], rfl, nofun, hpassed⟩

theorem guarded_nil : Guarded [] := fun done call todo h => by simp at h

/-- Five failures, the last three of them in one moment, lock for as long as they should. -/
def fiveGuesses : List LimiterCall :=
  open LimiterCall in
  [] ++ [isLocked "a" 0] ++ [recordFailure "a" 1] ++ [isLocked "a" 2] ++ [recordFailure "a" 3] ++
    [isLocked "a" 300] ++ [recordFailure "a" 301] ++ [isLocked "a" 301] ++
      [recordFailure "a" 301] ++ [isLocked "a" 301] ++ [recordFailure "a" 301]

theorem locked_fiveGuesses :
    (((limiterAfter fiveGuesses).isLocked "a" 1200).1 = true ↔
        Locked rounded "a" fiveGuesses.reverse 1200) ∧
      ((limiterAfter fiveGuesses).isLocked "a" 1200).1 =
        ((limiterAfter (fiveGuesses.filter fun call => call.clientIp = "a")).isLocked "a"
          1200).1 := by
  have hguarded : Guarded (fiveGuesses ++ [.isLocked "a" 1200]) := by
    refine Guarded.ask ?_ "a" 1200
    unfold fiveGuesses
    refine Guarded.attempt (Guarded.attempt (Guarded.attempt (Guarded.attempt (Guarded.attempt
      guarded_nil ?_ 1) ?_ 3) ?_ 301) ?_ 301) ?_ 301
    all_goals decide +kernel
  have htimed : Timed (fiveGuesses ++ [.isLocked "a" 1200]) :=
    ⟨by decide +kernel, by decide +kernel⟩
  exact locked_iff hguarded htimed rfl

/-- The double `0.3`. -/
def firstTime : Double := .scaled 5404319552844595 (1074 - 54)

/-- The double `300.3`, which is more than 300 above: `300.3 - 0.3 == 300.0` in doubles. -/
def lastTime : Double := .scaled 5282933469138125 (1074 - 44)

/-- A failure, and four others when a little more than the window has passed. -/
def lateGuesses : List LimiterCall :=
  open LimiterCall in
  [] ++ [isLocked "a" firstTime] ++ [recordFailure "a" firstTime] ++ [isLocked "a" lastTime] ++
    [recordFailure "a" lastTime] ++ [isLocked "a" lastTime] ++ [recordFailure "a" lastTime] ++
      [isLocked "a" lastTime] ++ [recordFailure "a" lastTime] ++ [isLocked "a" lastTime] ++
        [recordFailure "a" lastTime]

/-- The difference is rounded, so that the first of five failures counts at the last, though it
is not in the window any more. -/
theorem locked_beyond_window :
    Guarded (lateGuesses ++ [.isLocked "a" lastTime]) ∧ Timed (lateGuesses ++ [.isLocked "a" lastTime]) ∧
      ((limiterAfter lateGuesses).isLocked "a" lastTime).1 = true ∧
        ¬ Locked exact "a" lateGuesses.reverse lastTime := by
  refine ⟨?_, ⟨by decide +kernel, by decide +kernel⟩, by decide +kernel, by decide +kernel⟩
  refine Guarded.ask ?_ "a" lastTime
  unfold lateGuesses
  refine Guarded.attempt (Guarded.attempt (Guarded.attempt (Guarded.attempt (Guarded.attempt
    guarded_nil ?_ firstTime) ?_ lastTime) ?_ lastTime) ?_ lastTime) ?_ lastTime
  all_goals decide +kernel

end

end AnonyMus.P2p.LoginPolicy
