import AnonyMus.Lib.Dict
import AnonyMus.Lib.Double
import AnonyMus.Lib.Lockout
import AnonyMus.Lib.Simulation
import AnonyMus.Relay.Server

/-!
# P2P node — logins

`login` of `transports/p2p/routers/auth.py` with its `_LoginRateLimiter`, and
`legacy_login` of `transports/p2p/routers/compat.py`, which verifies passwords
too but does not know the limiter. A handler suspends at the query for the user
and, in `login`, while a thread checks the password. The limiter reckons in doubles.

* `LoginRateLimiter`, `Auth` — the limiter, and the handlers in flight;
* `Auth.account` — what the limiter and the handlers are for one address;
* `Unhurried` — no login of the address is let in while as many guesses are
  outstanding as failures lock;
* `sound_step` — under that condition a step keeps the account sound;
* `bounded_guesses` — and so no window without success has more failed guesses.
-/

namespace AnonyMus.P2p.Login

open EStateM Account
open Relay (strip)

/-! ## The limiter -/

def maxFailuresShort : ℕ := 5

def shortWindow : Double := 300

def lockoutDuration : Double := 900

/-- `_LoginRateLimiter`; `now` is `time.monotonic()`. -/
structure LoginRateLimiter where
  failures    : Dict String (List Double)
  lockedUntil : Dict String Double

namespace LoginRateLimiter

def isLocked (clientIp : String) (now : Double) (limiter : LoginRateLimiter) :
    Bool × LoginRateLimiter :=
  let until_ := (limiter.lockedUntil.get? clientIp).getD 0
  if now < until_ then (true, limiter)
  else if until_ ≠ 0 then
    (false, ⟨limiter.failures.erase clientIp, limiter.lockedUntil.erase clientIp⟩)
  else (false, limiter)

def recordFailure (clientIp : String) (now : Double) (limiter : LoginRateLimiter) :
    LoginRateLimiter :=
  let q := ((limiter.failures.get? clientIp).getD [] ++ [now]).dropWhile fun t =>
    shortWindow < now - t
  { failures    := limiter.failures.insert clientIp q
    lockedUntil :=
      if maxFailuresShort ≤ q.length then
        limiter.lockedUntil.insert clientIp (now + lockoutDuration)
      else limiter.lockedUntil }

def recordSuccess (clientIp : String) (limiter : LoginRateLimiter) : LoginRateLimiter :=
  ⟨limiter.failures.erase clientIp, limiter.lockedUntil.erase clientIp⟩

end LoginRateLimiter

/-! ## The handlers -/

/-- What a request to either endpoint brings. -/
structure LoginRequest where
  /-- `request.client.host`. -/
  peer         : Option String
  /-- `X-Forwarded-For`, empty if it is not there. -/
  forwardedFor : String
  username     : String
  password     : String

/-- `_client_ip`. -/
def clientIp (request : LoginRequest) : String :=
  let peer := request.peer.getD "unknown"
  if peer ∈ ["127.0.0.1", "::1", "localhost"] then
    if request.forwardedFor ≠ "" then
      strip (String.ofList (request.forwardedFor.toList.takeWhile (· ≠ ',')))
    else peer
  else peer

/-- Where a handler is suspended. -/
inductive Suspended
  /-- `login` in `session.scalar`: the password hash of the user, once the database has read it. -/
  | scalar (row : Option (Option String))
  /-- `login`, before the thread has run `checkpw`. -/
  | toThread (passwordHash : String)
  /-- `login`, with what `checkpw` returned; none if it raised. -/
  | checked (isValid : Option Bool)
  /-- `legacy_login` in `session.scalar`. -/
  | legacyScalar (row : Option (Option String))

namespace Suspended

/-- A handler of `login`, which has passed the limiter. -/
def isLogin : Suspended → Bool
  | legacyScalar _ => false
  | _ => true

/-- The check of the handler has failed, and the limiter is not told yet. -/
def isFailing : Suspended → Bool
  | checked (some false) => true
  | _ => false

/-- The hash that `legacy_login` checks next. -/
def legacyHash : Suspended → Option String
  | legacyScalar (some row) => row
  | _ => none

end Suspended

/-- A handler in flight. -/
structure Flight where
  request   : LoginRequest
  suspended : Suspended

/-- The login endpoints of a node, with a log of password checks, newest first, and the addresses
they are from. -/
structure Auth where
  limiter : LoginRateLimiter
  /-- The password hashes by user name. -/
  users   : Dict String String
  clock   : Double
  flights : List Flight
  log     : List (String × Attempt Double)

/-- What the endpoints take from Python and from `bcrypt`. -/
structure AuthLibrary where
  /-- `str.lower`. -/
  lower : String → String
  /-- `bcrypt.checkpw`; none if it raises. -/
  checkpw : (password passwordHash : String) → Option Bool

/-- The nanoseconds of the clock are a number of 64 bits. -/
def Monotonic : Type := { now : Double // now.toRat < 2 ^ 34 }

inductive AuthStep
  | tick (now : Monotonic)
  /-- Another endpoint writes the row of a user. -/
  | saveUser (username passwordHash : String)
  | login (request : LoginRequest)
  | legacyLogin (request : LoginRequest)
  /-- What a handler waits for goes on: the database, the thread, or the handler itself. -/
  | resume (flight : ℕ)
  /-- The query of a handler raises. -/
  | queryFails (flight : ℕ)

namespace Auth

variable (A : AuthLibrary)

def new : Auth := ⟨⟨Dict.empty, Dict.empty⟩, Dict.empty, 0, [], []⟩

/-- The handler returns or raises. -/
def leave (flight : ℕ) (s : Auth) : Auth := { s with flights := s.flights.eraseIdx flight }

/-- The handler goes on to where it is suspended next. -/
def suspend (flight : ℕ) (f : Flight) (next : Suspended) (s : Auth) : Auth :=
  { s with flights := s.flights.set flight { f with suspended := next } }

def recordFailure (clientIp : String) (s : Auth) : Auth :=
  { s with limiter := s.limiter.recordFailure clientIp s.clock }

def recordSuccess (clientIp : String) (s : Auth) : Auth :=
  { s with
    limiter := s.limiter.recordSuccess clientIp
    log     := (clientIp, .succeeded s.clock) :: s.log }

/-- `login`, up to the query. -/
def login (request : LoginRequest) (s : Auth) : Auth :=
  let (locked, limiter) := s.limiter.isLocked (clientIp request) s.clock
  let s := { s with limiter }
  if locked then s
  else { s with flights := s.flights ++ [⟨request, .scalar none⟩] }

/-- `checkpw` in the thread of `login`. -/
def checkInThread (flight : ℕ) (f : Flight) (passwordHash : String) (s : Auth) : Auth :=
  let isValid := A.checkpw f.request.password passwordHash
  let s := s.suspend flight f (.checked isValid)
  if isValid = some false then
    { s with log := (clientIp f.request, .failed true s.clock) :: s.log }
  else s

/-- `legacy_login`, from the check on. -/
def legacyCheck (flight : ℕ) (f : Flight) (passwordHash : String) (s : Auth) : Auth :=
  match A.checkpw f.request.password passwordHash with
  | some false =>
    { s.leave flight with log := (clientIp f.request, .failed false s.clock) :: s.log }
  | some true =>
    { s.leave flight with log := (clientIp f.request, .succeeded s.clock) :: s.log }
  | none => s.leave flight

def resume (flight : ℕ) (f : Flight) (s : Auth) : Auth :=
  let row := s.users.get? (A.lower f.request.username)
  match f.suspended with
  | .scalar none => s.suspend flight f (.scalar (some row))
  | .scalar (some none) => (s.leave flight).recordFailure (clientIp f.request)
  | .scalar (some (some passwordHash)) => s.suspend flight f (.toThread passwordHash)
  | .toThread passwordHash => s.checkInThread A flight f passwordHash
  | .checked (some false) => (s.leave flight).recordFailure (clientIp f.request)
  | .checked (some true) => (s.leave flight).recordSuccess (clientIp f.request)
  | .checked none => s.leave flight
  | .legacyScalar none => s.suspend flight f (.legacyScalar (some row))
  | .legacyScalar (some none) => s.leave flight
  | .legacyScalar (some (some passwordHash)) => s.legacyCheck A flight f passwordHash

/-- The handler is in its query. -/
def queryFails (flight : ℕ) (f : Flight) (s : Auth) : Auth :=
  match f.suspended with
  | .scalar none | .legacyScalar none => s.leave flight
  | _ => s

def apply (s : Auth) : AuthStep → Auth
  | .tick now => { s with clock := max s.clock now.1 }
  | .saveUser username passwordHash => { s with users := s.users.insert username passwordHash }
  | .login request => s.login request
  | .legacyLogin request => { s with flights := s.flights ++ [⟨request, .legacyScalar none⟩] }
  | .resume flight => s.flights[flight]?.elim s fun f => s.resume A flight f
  | .queryFails flight => s.flights[flight]?.elim s fun f => s.queryFails flight f

/-- A step as an action. -/
def act (k : AuthStep) : EStateM Empty Auth Unit := modify fun s => s.apply A k

/-! ## One address -/

/-- The handlers from the address that are suspended so. -/
def inFlight (ip : String) (where_ : Suspended → Bool) (s : Auth) : ℕ :=
  s.flights.countP fun f => clientIp f.request = ip && where_ f.suspended

/-- What the log has of the address. -/
def attempts (ip : String) (s : Auth) : List (Attempt Double) :=
  (s.log.filter fun e => e.1 = ip).map Prod.snd

def account (ip : String) (s : Auth) : Account Double where
  now         := s.clock
  failures    := (s.limiter.failures.get? ip).getD []
  lockedUntil := s.limiter.lockedUntil.get? ip
  inFlight    := s.inFlight ip Suspended.isLogin
  failing     := s.inFlight ip Suspended.isFailing
  log         := s.attempts ip

end Auth

theorem toRat_shortWindow : shortWindow.toRat = 300 := Double.toRat_ofNat (by norm_num)

/-- The limits of `_LoginRateLimiter`, and the window of 300 seconds that they are for. -/
def policy : Policy Double where
  maxFailures := maxFailuresShort
  near t now  := now - t ≤ shortWindow
  ends t      := t + lockoutDuration
  inTime t    := t.toRat < 2 ^ 34
  seconds     := Double.toRat
  shortWindow := 300
  nonneg      := by norm_num
  mono        := Double.toRat_mono
  closing     := by
    intro t t' now now' ht hnow hnear
    rw [decide_eq_true_eq] at hnear ⊢
    exact (Double.sub_mono hnow ht).trans hnear
  near_of_le  := by
    intro t now hle
    refine decide_eq_true (Double.sub_le_of_toRat ?_)
    rw [toRat_shortWindow]
    exact hle
  lasts       := by
    intro t ht
    have hlast := Double.lt_toRat_add (a := t) (n := 900) (by push_cast; linarith)
    push_cast at hlast
    show t.toRat + 300 < (t + OfNat.ofNat 900).toRat
    linarith

/-- The step lets no guess from the address through while as many as lock are outstanding: neither
`login` by its limiter, nor `legacy_login` with a wrong password. -/
def Unhurried (A : AuthLibrary) (ip : String) : AuthStep → Auth → Prop
  | .login request, s =>
    clientIp request = ip → (s.limiter.isLocked ip s.clock).1 = false →
      (s.account ip).outstanding policy < maxFailuresShort
  | .resume flight, s =>
    ∀ f ∈ s.flights[flight]?, clientIp f.request = ip → ∀ passwordHash ∈ f.suspended.legacyHash,
      A.checkpw f.request.password passwordHash = some false →
        (s.account ip).outstanding policy < maxFailuresShort
  | _, _ => True

/-! ## What the steps are to the address -/

namespace Auth

section

variable {A : AuthLibrary} {s : Auth} {ip : String} {flight : ℕ} {f : Flight}

theorem isLogin_of_isFailing {p : Suspended} (h : p.isFailing = true) : p.isLogin = true := by
  rcases p with _ | _ | _ | _
  · rfl
  · rfl
  · rfl
  · cases h

theorem failing_le (ip : String) (s : Auth) :
    s.inFlight ip Suspended.isFailing ≤ s.inFlight ip Suspended.isLogin := by
  apply List.countP_mono_left
  intro f _ hf
  rw [Bool.and_eq_true] at hf ⊢
  exact ⟨hf.1, isLogin_of_isFailing hf.2⟩

/-- A handler beside the others. -/
theorem inFlight_eq (hf : s.flights[flight]? = some f) (ip : String) (p : Suspended → Bool) :
    s.inFlight ip p = (s.leave flight).inFlight ip p +
      if (clientIp f.request = ip && p f.suspended) = true then 1 else 0 := by
  obtain ⟨hlt, rfl⟩ := List.getElem?_eq_some_iff.mp hf
  rw [inFlight, ← (List.getElem_cons_eraseIdx_perm hlt).countP_eq, List.countP_cons]
  rfl

theorem inFlight_suspend (hf : s.flights[flight]? = some f) (next : Suspended) (ip : String)
    (p : Suspended → Bool) :
    (s.suspend flight f next).inFlight ip p = (s.leave flight).inFlight ip p +
      if (clientIp f.request = ip && p next) = true then 1 else 0 := by
  obtain ⟨hlt, -⟩ := List.getElem?_eq_some_iff.mp hf
  rw [inFlight, suspend, (List.set_perm_cons_eraseIdx hlt _).countP_eq, List.countP_cons]
  rfl

/-- Only the numbers of handlers depend on where these are suspended. -/
theorem account_congr {s' : Auth} (hclock : s'.clock = s.clock) (hlimiter : s'.limiter = s.limiter)
    (hlog : s'.log = s.log)
    (hlogin : s'.inFlight ip Suspended.isLogin = s.inFlight ip Suspended.isLogin)
    (hfailing : s'.inFlight ip Suspended.isFailing = s.inFlight ip Suspended.isFailing) :
    s'.account ip = s.account ip := by
  unfold account attempts
  rw [hclock, hlimiter, hlog, hlogin, hfailing]

theorem account_suspend (hf : s.flights[flight]? = some f) {next : Suspended}
    (hlogin : next.isLogin = f.suspended.isLogin) (hfailing : next.isFailing = f.suspended.isFailing) :
    (s.suspend flight f next).account ip = s.account ip := by
  refine account_congr rfl rfl rfl ?_ ?_
  · rw [inFlight_suspend hf, inFlight_eq hf, hlogin]
  · rw [inFlight_suspend hf, inFlight_eq hf, hfailing]

/-- The handlers from other addresses do not count. -/
theorem account_other (hf : s.flights[flight]? = some f) (hne : clientIp f.request ≠ ip) :
    (s.leave flight).account ip = s.account ip ∧
      ∀ next, (s.suspend flight f next).account ip = s.account ip := by
  have hcount : ∀ p, (s.leave flight).inFlight ip p = s.inFlight ip p := by
    intro p
    rw [inFlight_eq hf]
    simp [hne]
  refine ⟨account_congr rfl rfl rfl (hcount _) (hcount _), fun next => ?_⟩
  refine account_congr rfl rfl rfl ?_ ?_
  · rw [inFlight_suspend hf, hcount]
    simp [hne]
  · rw [inFlight_suspend hf, hcount]
    simp [hne]

/-- Nor do those of `legacy_login`. -/
theorem account_leave_legacy (hf : s.flights[flight]? = some f)
    (hlegacy : f.suspended.isLogin = false) : (s.leave flight).account ip = s.account ip := by
  have hfailing : f.suspended.isFailing = false := by
    by_contra h
    rw [isLogin_of_isFailing (Bool.not_eq_false _ |>.mp h)] at hlegacy
    cases hlegacy
  refine account_congr rfl rfl rfl ?_ ?_
  · rw [inFlight_eq hf, hlegacy]
    simp
  · rw [inFlight_eq hf, hfailing]
    simp

theorem account_leave (hf : s.flights[flight]? = some f) (hip : clientIp f.request = ip)
    (hlogin : f.suspended.isLogin = true) :
    (s.leave flight).account ip = (s.account ip).leave f.suspended.isFailing := by
  unfold account Account.leave
  rw [inFlight_eq hf ip Suspended.isLogin, inFlight_eq hf ip Suspended.isFailing, hlogin]
  cases hfailing : f.suspended.isFailing with
  | true =>
    simp only [hip, decide_true, Bool.and_true, if_true, Nat.add_sub_cancel, Bool.toNat_true]
    rfl
  | false =>
    simp only [hip, decide_true, Bool.and_true, if_true, Nat.add_sub_cancel, Bool.and_false,
      Bool.false_eq_true, if_false, Bool.toNat_false, Nat.add_zero, Nat.sub_zero]
    rfl

/-- A handler of `login` that is not failing counts beside those that are. -/
theorem failing_lt (hf : s.flights[flight]? = some f) (hip : clientIp f.request = ip)
    (hlogin : f.suspended.isLogin = true) (hnot : f.suspended.isFailing = false) :
    (s.account ip).failing < (s.account ip).inFlight := by
  have hrest := failing_le ip (s.leave flight)
  show s.inFlight ip Suspended.isFailing < s.inFlight ip Suspended.isLogin
  rw [inFlight_eq hf ip Suspended.isLogin, inFlight_eq hf ip Suspended.isFailing, hip, hlogin, hnot]
  simp only [decide_true, Bool.and_true, if_true, Bool.and_false, Bool.false_eq_true, if_false]
  omega

theorem inFlight_pos (hf : s.flights[flight]? = some f) (hip : clientIp f.request = ip)
    (hlogin : f.suspended.isLogin = true) : 0 < (s.account ip).inFlight := by
  show 0 < s.inFlight ip Suspended.isLogin
  rw [inFlight_eq hf, hip, hlogin]
  simp

theorem account_recordFailure (s : Auth) :
    (s.recordFailure ip).account ip = (s.account ip).recordFailure policy := by
  have hold : (fun t => decide (shortWindow < s.clock - t)) = fun t => !policy.near t s.clock := by
    funext t
    show decide (_ < _) = !decide (_ ≤ _)
    rw [← decide_not, decide_eq_decide]
    exact not_le.symm
  unfold recordFailure LoginRateLimiter.recordFailure account
  dsimp only
  rw [Dict.get?_insert, if_pos rfl, apply_ite fun d : Dict String Double => d.get? ip,
    Dict.get?_insert, if_pos rfl, hold]
  rfl

theorem account_recordFailure_other {other : String} (hne : other ≠ ip) (s : Auth) :
    (s.recordFailure other).account ip = s.account ip := by
  unfold recordFailure LoginRateLimiter.recordFailure account
  dsimp only
  rw [Dict.get?_insert, if_neg hne.symm]
  split_ifs with hfull
  · rw [Dict.get?_insert, if_neg hne.symm]
    rfl
  · rfl

/-- An entry of the log. -/
theorem attempts_cons (e : String × Attempt Double) (s : Auth) :
    ({ s with log := e :: s.log } : Auth).attempts ip =
      if e.1 = ip then e.2 :: s.attempts ip else s.attempts ip := by
  unfold attempts
  rw [List.filter_cons]
  split_ifs with h h' h'
  · rfl
  · exact absurd (of_decide_eq_true h) h'
  · exact absurd (decide_eq_true h') h
  · rfl

theorem account_log (attempt : Attempt Double) (s : Auth) :
    ({ s with log := (ip, attempt) :: s.log } : Auth).account ip =
      { s.account ip with log := attempt :: (s.account ip).log } := by
  unfold account
  rw [attempts_cons, if_pos rfl]
  rfl

theorem account_log_other {other : String} (hne : other ≠ ip) (attempt : Attempt Double) (s : Auth) :
    ({ s with log := (other, attempt) :: s.log } : Auth).account ip = s.account ip := by
  unfold account
  rw [attempts_cons, if_neg hne]
  rfl

theorem account_recordSuccess (s : Auth) :
    (s.recordSuccess ip).account ip = (s.account ip).recordSuccess := by
  refine (account_log _ { s with limiter := s.limiter.recordSuccess ip }).trans ?_
  unfold LoginRateLimiter.recordSuccess account Account.recordSuccess Account.unlock
  dsimp only
  rw [Dict.get?_erase, if_pos rfl, Dict.get?_erase, if_pos rfl]
  rfl

theorem account_recordSuccess_other {other : String} (hne : other ≠ ip) (s : Auth) :
    (s.recordSuccess other).account ip = s.account ip := by
  refine (account_log_other hne _ { s with limiter := s.limiter.recordSuccess other }).trans ?_
  unfold LoginRateLimiter.recordSuccess account
  dsimp only
  rw [Dict.get?_erase, if_neg hne.symm, Dict.get?_erase, if_neg hne.symm]
  rfl

theorem account_unlock (s : Auth) :
    ({ s with limiter := ⟨s.limiter.failures.erase ip, s.limiter.lockedUntil.erase ip⟩ } :
      Auth).account ip = (s.account ip).unlock := by
  unfold account Account.unlock
  dsimp only
  rw [Dict.get?_erase, if_pos rfl, Dict.get?_erase, if_pos rfl]
  rfl

theorem account_unlock_other {other : String} (hne : other ≠ ip) (s : Auth) :
    ({ s with limiter := ⟨s.limiter.failures.erase other, s.limiter.lockedUntil.erase other⟩ } :
      Auth).account ip = s.account ip := by
  unfold account
  dsimp only
  rw [Dict.get?_erase, if_neg hne.symm, Dict.get?_erase, if_neg hne.symm]
  rfl

/-- The thread finds the password wrong. -/
theorem account_fail (hf : s.flights[flight]? = some f) (hip : clientIp f.request = ip)
    (hlogin : f.suspended.isLogin = true) (hnot : f.suspended.isFailing = false) :
    ({ s.suspend flight f (.checked (some false)) with
        log := (ip, .failed true s.clock) :: s.log } : Auth).account ip = (s.account ip).fail := by
  refine (account_log _ (s.suspend flight f (.checked (some false)))).trans ?_
  have hin : (s.suspend flight f (.checked (some false))).inFlight ip Suspended.isLogin =
      s.inFlight ip Suspended.isLogin := by
    rw [inFlight_suspend hf, inFlight_eq hf, hlogin]
    rfl
  have hfailing : (s.suspend flight f (.checked (some false))).inFlight ip Suspended.isFailing =
      s.inFlight ip Suspended.isFailing + 1 := by
    rw [inFlight_suspend hf, inFlight_eq hf, hnot, hip]
    simp [Suspended.isFailing]
  unfold account
  rw [hin, hfailing]
  rfl

/-- A handler that starts. -/
theorem inFlight_start (request : LoginRequest) (p : Suspended) (where_ : Suspended → Bool)
    (s : Auth) :
    ({ s with flights := s.flights ++ [⟨request, p⟩] } : Auth).inFlight ip where_ =
      s.inFlight ip where_ + if (clientIp request = ip && where_ p) = true then 1 else 0 := by
  unfold inFlight
  rw [List.countP_append, List.countP_singleton]

theorem account_letIn {request : LoginRequest} (hip : clientIp request = ip) (s : Auth) :
    ({ s with flights := s.flights ++ [⟨request, .scalar none⟩] } : Auth).account ip =
      (s.account ip).letIn := by
  have hlogin : ({ s with flights := s.flights ++ [⟨request, .scalar none⟩] } : Auth).inFlight ip
      Suspended.isLogin = s.inFlight ip Suspended.isLogin + 1 := by
    rw [inFlight_start]
    simp [hip, Suspended.isLogin]
  have hfailing : ({ s with flights := s.flights ++ [⟨request, .scalar none⟩] } : Auth).inFlight ip
      Suspended.isFailing = s.inFlight ip Suspended.isFailing := by
    rw [inFlight_start]
    simp [Suspended.isFailing]
  unfold account
  rw [hlogin, hfailing]
  rfl

/-- A handler that starts elsewhere, or past the limiter. -/
theorem account_start_other {request : LoginRequest} {p : Suspended}
    (h : clientIp request ≠ ip ∨ p = .legacyScalar none) (s : Auth) :
    ({ s with flights := s.flights ++ [⟨request, p⟩] } : Auth).account ip = s.account ip := by
  refine account_congr rfl rfl rfl ?_ ?_
  · rw [inFlight_start]
    rcases h with hne | rfl
    · simp [hne]
    · simp [Suspended.isLogin]
  · rw [inFlight_start]
    rcases h with hne | rfl
    · simp [hne]
    · simp [Suspended.isFailing]

end

end Auth

/-! ## A step -/

section

variable {A : AuthLibrary} {s : Auth} {ip : String} {flight : ℕ} {f : Flight}

open Auth

/-- No lock ends at zero, which would read as no lock. -/
theorem lockEnd_ne_zero (l : Double) : l + lockoutDuration ≠ 0 := by
  have hpos : 0 < lockoutDuration := by decide +kernel
  exact (hpos.trans_le (Double.le_add l lockoutDuration)).ne'

/-- The address is locked, or an old lock is forgotten, or there is none. -/
theorem isLocked_cases (limiter : LoginRateLimiter) (ip : String) (now : Double) :
    limiter.isLocked ip now = (true, limiter) ∨
    (∃ u, limiter.lockedUntil.get? ip = some u ∧ u ≤ now ∧
      limiter.isLocked ip now =
        (false, ⟨limiter.failures.erase ip, limiter.lockedUntil.erase ip⟩)) ∨
    ((∀ u ∈ limiter.lockedUntil.get? ip, u = 0) ∧ limiter.isLocked ip now = (false, limiter)) := by
  unfold LoginRateLimiter.isLocked
  dsimp only
  rcases hget : limiter.lockedUntil.get? ip with _ | u
  · split_ifs with hlocked hexpired
    · exact .inl rfl
    · exact absurd rfl hexpired
    · exact .inr (.inr ⟨fun u hu => absurd hu (Option.not_mem_none u), rfl⟩)
  · rw [Option.getD_some]
    split_ifs with hlocked hexpired
    · exact .inl rfl
    · exact .inr (.inl ⟨u, rfl, not_lt.mp hlocked, rfl⟩)
    · refine .inr (.inr ⟨?_, rfl⟩)
      intro u' hu'
      rw [← Option.some.inj hu']
      exact not_not.mp hexpired

theorem login_other {request : LoginRequest} (hne : clientIp request ≠ ip) :
    (s.login request).account ip = s.account ip := by
  unfold login
  rcases isLocked_cases s.limiter (clientIp request) s.clock with h | ⟨-, -, -, h⟩ | ⟨-, h⟩
  · rw [h]
    rfl
  · rw [h]
    exact (account_start_other (.inl hne) _).trans (account_unlock_other hne s)
  · rw [h]
    exact account_start_other (.inl hne) s

theorem sound_login {request : LoginRequest} (hs : (s.account ip).Sound policy)
    (hroom : Unhurried A ip (.login request) s) :
    ((s.login request).account ip).Sound policy := by
  by_cases hip : clientIp request = ip
  · have hroom := hroom hip
    unfold login
    rw [hip]
    rcases isLocked_cases s.limiter ip s.clock with h | ⟨u, hu, hexpired, h⟩ | ⟨hzero, h⟩
    · rw [h]
      exact hs
    · rw [h] at hroom ⊢
      have haccount := (account_letIn hip _).trans (congrArg Account.letIn (account_unlock s))
      refine (congrArg (Sound policy) haccount).mpr ?_
      exact (hs.unlock hu hexpired).letIn rfl (outstanding_unlock_le.trans_lt (hroom rfl))
    · rw [h] at hroom ⊢
      -- no lock is 0, so there is none
      have hnone : (s.account ip).lockedUntil = none := by
        rw [Option.eq_none_iff_forall_ne_some]
        intro u hu
        obtain ⟨-, l, -, hend, -⟩ := hs.locked u hu
        exact lockEnd_ne_zero l (hend.symm.trans (hzero u hu))
      refine (congrArg (Sound policy) (account_letIn hip s)).mpr ?_
      exact hs.letIn hnone (hroom rfl)
  · rw [login_other hip]
    exact hs

theorem sound_resume (hf : s.flights[flight]? = some f) (hs : (s.account ip).Sound policy)
    (hroom : Unhurried A ip (.resume flight) s) :
    ((s.resume A flight f).account ip).Sound policy := by
  obtain ⟨request, suspended⟩ := f
  by_cases hip : clientIp request = ip
  · subst hip
    have hsuspend : ∀ next, next.isLogin = suspended.isLogin →
        next.isFailing = suspended.isFailing →
        ((s.suspend flight ⟨request, suspended⟩ next).account (clientIp request)).Sound policy := by
      intro next hlogin hfailing
      exact (congrArg (Sound policy) (account_suspend hf hlogin hfailing)).mpr hs
    rcases suspended with (_ | _ | hash) | hash | (_ | _ | _) | (_ | _ | hash)
    · exact hsuspend _ rfl rfl
    · -- an unknown user: recorded, without a check
      have haccount := (account_recordFailure _).trans
        (congrArg (Account.recordFailure policy) (account_leave hf rfl rfl))
      refine (congrArg (Sound policy) haccount).mpr ?_
      exact hs.recordFailure (failing_lt hf rfl rfl rfl) (inFlight_pos hf rfl rfl)
    · exact hsuspend _ rfl rfl
    · unfold resume checkInThread
      dsimp only
      rcases A.checkpw request.password hash with _ | _ | _
      · exact hsuspend _ rfl rfl
      · refine (congrArg (Sound policy) (account_fail hf rfl rfl rfl)).mpr ?_
        exact hs.fail (failing_lt hf rfl rfl rfl)
      · exact hsuspend _ rfl rfl
    · exact (congrArg (Sound policy) (account_leave hf rfl rfl)).mpr
        (hs.leave (failing_lt hf rfl rfl rfl))
    · have haccount := (account_recordFailure _).trans
        (congrArg (Account.recordFailure policy) (account_leave hf rfl rfl))
      refine (congrArg (Sound policy) haccount).mpr ?_
      exact hs.recordFailure (Nat.lt_succ_of_le hs.failing) (inFlight_pos hf rfl rfl)
    · have haccount := (account_recordSuccess _).trans
        (congrArg Account.recordSuccess (account_leave hf rfl rfl))
      refine (congrArg (Sound policy) haccount).mpr ?_
      exact (hs.leave (failing_lt hf rfl rfl rfl)).recordSuccess
    · exact hsuspend _ rfl rfl
    · exact (congrArg (Sound policy) (account_leave_legacy hf rfl)).mpr hs
    · have hleave := @account_leave_legacy s (clientIp request) flight _ hf rfl
      have hroom := hroom _ hf rfl hash rfl
      unfold resume legacyCheck
      dsimp only
      rcases hcheck : A.checkpw request.password hash with _ | _ | _
      · exact (congrArg (Sound policy) hleave).mpr hs
      · -- a guess that the limiter never hears of
        have haccount := (account_log (.failed false s.clock) _).trans
          (congrArg (fun a : Account Double => { a with log := .failed false s.clock :: a.log }) hleave)
        refine (congrArg (Sound policy) haccount).mpr ?_
        exact hs.failUnheard (hroom hcheck)
      · have haccount := (account_log (.succeeded s.clock) _).trans
          (congrArg (fun a : Account Double => { a with log := .succeeded s.clock :: a.log }) hleave)
        refine (congrArg (Sound policy) haccount).mpr ?_
        exact hs.succeedUnheard
  · -- nothing about another address is touched
    obtain ⟨hleave, hsuspend⟩ := account_other hf hip
    have hother : (s.resume A flight ⟨request, suspended⟩).account ip = s.account ip := by
      rcases suspended with (_ | _ | hash) | hash | (_ | _ | _) | (_ | _ | hash)
      · exact hsuspend _
      · exact (account_recordFailure_other hip _).trans hleave
      · exact hsuspend _
      · unfold resume checkInThread
        dsimp only
        split_ifs with hfailed
        · exact (account_log_other hip _ _).trans (hsuspend _)
        · exact hsuspend _
      · exact hleave
      · exact (account_recordFailure_other hip _).trans hleave
      · exact (account_recordSuccess_other hip _).trans hleave
      · exact hsuspend _
      · exact hleave
      · unfold resume legacyCheck
        dsimp only
        rcases A.checkpw request.password hash with _ | _ | _
        · exact hleave
        · exact (account_log_other hip _ _).trans hleave
        · exact (account_log_other hip _ _).trans hleave
    rw [hother]
    exact hs

theorem sound_queryFails (hf : s.flights[flight]? = some f) (hs : (s.account ip).Sound policy) :
    ((s.queryFails flight f).account ip).Sound policy := by
  obtain ⟨request, suspended⟩ := f
  by_cases hip : clientIp request = ip
  · rcases suspended with (_ | row) | hash | isValid | (_ | row)
    · exact (congrArg (Sound policy) (account_leave hf hip rfl)).mpr
        (hs.leave (failing_lt hf hip rfl rfl))
    · exact hs
    · exact hs
    · exact hs
    · exact (congrArg (Sound policy) (account_leave_legacy hf rfl)).mpr hs
    · exact hs
  · have hleave := (congrArg (Sound policy) (account_other hf hip).1).mpr hs
    rcases suspended with (_ | row) | hash | isValid | (_ | row)
    · exact hleave
    · exact hs
    · exact hs
    · exact hs
    · exact hleave
    · exact hs

theorem sound_step {k : AuthStep} (hs : (s.account ip).Sound policy)
    (hroom : Unhurried A ip k s) : (((act A k) s).state.account ip).Sound policy := by
  show ((s.apply A k).account ip).Sound policy
  cases k with
  | tick now => exact hs.tick now.2
  | saveUser username passwordHash => exact hs
  | login request => exact sound_login hs hroom
  | legacyLogin request =>
    exact (congrArg (Sound policy) (account_start_other (.inr rfl) s)).mpr hs
  | resume flight =>
    rcases hf : s.flights[flight]? with _ | f
    · rw [apply, hf]
      exact hs
    · rw [apply, hf]
      exact sound_resume hf hs hroom
  | queryFails flight =>
    rcases hf : s.flights[flight]? with _ | f
    · rw [apply, hf]
      exact hs
    · rw [apply, hf]
      exact sound_queryFails hf hs

theorem sound_new (ip : String) : (Auth.new.account ip).Sound policy where
  inTime  := by
    show (0 : Double).toRat < 2 ^ 34
    rw [Double.toRat_ofNat (Nat.zero_le _)]
    norm_num
  past    := by simp [account, Auth.new]
  sorted  := List.Pairwise.nil
  logged  := by simp [account, attempts, Auth.new]
  failing := le_rfl
  few     := Nat.zero_le _
  locked  := by simp [account, Auth.new]
  counted := by
    intro w _ _
    exact Nat.zero_le _
  bounded := by
    intro w _
    exact Nat.zero_le _

end

/-! ## Runs -/

section

variable (A : AuthLibrary) (ip : String)

/-- After the run, no window in which no login from the address succeeded has more failed password
checks than lock. -/
def Bounded (ks : List AuthStep) : Prop :=
  ∀ w, Quiet policy w ((after (Auth.act A) ks Auth.new).attempts ip) →
    within policy w (failedAt ((after (Auth.act A) ks Auth.new).attempts ip)) ≤ maxFailuresShort

instance decidableUnhurried : ∀ k s, Decidable (Unhurried A ip k s)
  | .login request, s => inferInstanceAs (Decidable (clientIp request = ip →
      (s.limiter.isLocked ip s.clock).1 = false →
        (s.account ip).outstanding policy < maxFailuresShort))
  | .resume flight, s => inferInstanceAs (Decidable (∀ f ∈ s.flights[flight]?,
      clientIp f.request = ip → ∀ passwordHash ∈ f.suspended.legacyHash,
        A.checkpw f.request.password passwordHash = some false →
          (s.account ip).outstanding policy < maxFailuresShort))
  | .tick _, _ | .saveUser _ _, _ | .legacyLogin _, _ | .queryFails _, _ => .isTrue trivial

/-- In every run of logins from any addresses, to either endpoint and in any order of their
suspensions, in which no guess from the address is let through while five are outstanding, no more
than five fail in a window without success. -/
theorem bounded_guesses {ks : List AuthStep}
    (hunhurried : AllMeet (Auth.act A) (Unhurried A ip) ks Auth.new) : Bounded A ip ks := by
  have hsound : ((after (Auth.act A) ks Auth.new).account ip).Sound policy :=
    hunhurried.invariant (I := fun s => (s.account ip).Sound policy)
      (fun _ _ hs hroom => sound_step hs hroom) (sound_new ip)
  exact hsound.bounded

end

/-! ## Guessing -/

/-- The hash of a password is the password. -/
def plainAuth : AuthLibrary where
  lower s := s
  checkpw password passwordHash := some (password == passwordHash)

/-- A guess from one address. -/
def guess : LoginRequest := ⟨some "203.0.113.7", "", "alice", "letmein"⟩

/-- Six times in a row, a login that is done before the next one begins. -/
def patientGuesses : List AuthStep :=
  .saveUser "alice" "hash" :: (List.replicate 6
    [.login guess, .resume 0, .resume 0, .tick ⟨10, by decide +kernel⟩, .resume 0, .resume 0]).flatten

/-- The sixth is locked out. -/
theorem bounded_patientGuesses : Bounded plainAuth "203.0.113.7" patientGuesses :=
  bounded_guesses _ _ (by decide +kernel)

/-- Six logins pass the limiter before the first of them has been checked. -/
def parallelGuesses : List AuthStep :=
  .saveUser "alice" "hash" :: List.replicate 6 (.login guess) ++
    (List.range 6).flatMap fun flight => [.resume flight, .resume flight, .resume flight]

/-- Six logins to the endpoint without a limiter, one after the other. -/
def legacyGuesses : List AuthStep :=
  .saveUser "alice" "hash" ::
    (List.replicate 6 [.legacyLogin guess, .resume 0, .resume 0]).flatten

theorem unbounded_guesses :
    ¬ Bounded plainAuth "203.0.113.7" parallelGuesses ∧
      ¬ Bounded plainAuth "203.0.113.7" legacyGuesses := by
  constructor
  · intro hbounded
    exact absurd (hbounded 0 (by decide +kernel)) (by decide +kernel)
  · intro hbounded
    exact absurd (hbounded 0 (by decide +kernel)) (by decide +kernel)

end AnonyMus.P2p.Login
