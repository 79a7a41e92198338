import AnonyMus.Lib.Interleave
import AnonyMus.P2p.Node

/-!
# P2P node — pre-key bundles

`transports/p2p/routers/keys.py` and the pool of `core/prekey_pool.py`, for one
onion address: its row of `prekey_bundles` and its list in `_PREKEY_POOL`. Every
request is a thread that gives way where the source awaits or leaves a lock.
Between the UPDATE and the COMMIT of a session the others read the old row and
cannot write it, so `session.commit` is one command.

* `exec` — one command of a request;
* `PreKeyBundle.update` — what a session writes of a row it has changed;
* `Started`, `Ran` — all that a request can do up to its first wait, and a command;
* `apply` — a request arrives, or a thread runs its next command.
-/

namespace AnonyMus.P2p

/-! ## Rows -/

namespace PreKeyBundle

/-- A column after an UPDATE: a value that the session has not changed is not written. -/
def column {α : Type} [DecidableEq α] (loaded current row : α) : α :=
  if current = loaded then row else current

/-- The row after the UPDATE of a session that has loaded one bundle and changed it to another. -/
def update (loaded current row : PreKeyBundle) : PreKeyBundle where
  identityKey      := column loaded.identityKey current.identityKey row.identityKey
  signedPrekey     := column loaded.signedPrekey current.signedPrekey row.signedPrekey
  signedPrekeySig  := column loaded.signedPrekeySig current.signedPrekeySig row.signedPrekeySig
  pqPrekey         := column loaded.pqPrekey current.pqPrekey row.pqPrekey
  pqPrekeySig      := column loaded.pqPrekeySig current.pqPrekeySig row.pqPrekeySig
  oneTimePrekeys   := column loaded.oneTimePrekeys current.oneTimePrekeys row.oneTimePrekeys
  oneTimePqPrekeys := column loaded.oneTimePqPrekeys current.oneTimePqPrekeys row.oneTimePqPrekeys
  publishedAt      := column loaded.publishedAt current.publishedAt row.publishedAt

/-- `pop(0)` on both lists, where they have a key. -/
def pop (b : PreKeyBundle) : PreKeyBundle :=
  { b with
    oneTimePrekeys := b.oneTimePrekeys.tail
    oneTimePqPrekeys := b.oneTimePqPrekeys.tail }

def append (b : PreKeyBundle) (added : List String) : PreKeyBundle :=
  { b with oneTimePrekeys := b.oneTimePrekeys ++ added }

end PreKeyBundle

namespace Keys

open Interleave
open Relay (strip)

/-! ## Requests and answers -/

structure PreKeyBundlePublish where
  onionAddress     : String
  identityKey      : String
  signedPrekey     : String
  signedPrekeySig  : String
  pqPrekey         : String
  pqPrekeySig      : String
  oneTimePrekeys   : List String
  oneTimePqPrekeys : List String
  onionLength : 16 ≤ onionAddress.length ∧ onionAddress.length ≤ 128
  listLength  : oneTimePrekeys.length ≤ 100 ∧ oneTimePqPrekeys.length ≤ 100
deriving DecidableEq

/-- The row that the body asks for. -/
def PreKeyBundlePublish.bundle (body : PreKeyBundlePublish) (publishedAt : DateTime) :
    PreKeyBundle where
  identityKey      := body.identityKey
  signedPrekey     := body.signedPrekey
  signedPrekeySig  := body.signedPrekeySig
  pqPrekey         := body.pqPrekey
  pqPrekeySig      := body.pqPrekeySig
  oneTimePrekeys   := body.oneTimePrekeys
  oneTimePqPrekeys := body.oneTimePqPrekeys
  publishedAt      := publishedAt

structure RotateSignedPreKeyRequest where
  onionAddress    : String
  signedPrekey    : String
  signedPrekeySig : String
  pqPrekey        : String
  pqPrekeySig     : String
  onionLength : 16 ≤ onionAddress.length ∧ onionAddress.length ≤ 128
deriving DecidableEq

def RotateSignedPreKeyRequest.bundle (body : RotateSignedPreKeyRequest) (loaded : PreKeyBundle) :
    PreKeyBundle :=
  { loaded with
    signedPrekey := body.signedPrekey
    signedPrekeySig := body.signedPrekeySig
    pqPrekey := body.pqPrekey
    pqPrekeySig := body.pqPrekeySig }

structure PreKeyBundleResponse where
  onionAddress     : String
  identityKey      : String
  signedPrekey     : String
  signedPrekeySig  : String
  pqPrekey         : String
  pqPrekeySig      : String
  oneTimePrekey    : Option String
  oneTimePqPrekey  : Option String
  publishedAt      : DateTime
  opkPoolSize      : ℕ
deriving DecidableEq

/-- A pair of the pool, in base64. -/
structure KeyPair where
  pub  : String
  priv : String
deriving DecidableEq

/-- What is asked of the routers and of the pool. The user is the one that `get_current_user` has
found, `generated` are the pairs that the generator makes until it fails. -/
inductive Request
  | publish (currentUser : User) (body : PreKeyBundlePublish) (now : DateTime)
  | rotate (currentUser : User) (body : RotateSignedPreKeyRequest)
  | fetch (onionAddress : String)
  | fillPool (targetSize : ℕ) (generated : List KeyPair)
  | takeOneTimePrekey
  | drainPool
  | syncPoolToDb
deriving DecidableEq

inductive Answer
  | bundle (response : PreKeyBundleResponse)
  | published (opkCount : ℕ)
  | rotated
  | failed (failure : Failure)
deriving DecidableEq

/-! ## Commands -/

/-- What `fetch_bundle` keeps after its first commit: its session's bundle, the keys it has taken,
and, for the proofs, how many writes it had seen and has made. -/
structure Fetched where
  bundle : PreKeyBundle
  opk    : Option String
  opq    : Option String
  readAt : ℕ
  own    : ℕ
deriving DecidableEq

inductive Command
  /-- Up to the first wait: the checks and the SELECT, or one use of the pool. -/
  | start (r : Request)
  | publishCommit (loaded : Option PreKeyBundle) (body : PreKeyBundlePublish) (now : DateTime)
  | rotateCommit (loaded : PreKeyBundle) (body : RotateSignedPreKeyRequest)
  | fetchCommit (loaded : PreKeyBundle) (readAt : ℕ)
  /-- A turn of the loop that takes keys from the pool. -/
  | fetchTake (fetched : Fetched) (turns : ℕ) (added : List String)
  | refillCommit (fetched : Fetched) (added : List String)
  | respond (fetched : Fetched)
  | extendPool (added : List KeyPair)
  | syncSelect (pubKeys : List String)
  | syncCommit (loaded : PreKeyBundle) (pubKeys : List String)
deriving DecidableEq

/-- A write of the key lists of the row: by whom, and for a fetch how many writes it had seen. -/
inductive Write
  | published (body : PreKeyBundlePublish)
  | fetched (readAt : ℕ)
  | synced
deriving DecidableEq

/-- The row, the pool, the answers and the writes so far. -/
structure Store where
  bundle  : Option PreKeyBundle
  pool    : List KeyPair
  answers : List Answer
  writes  : List Write
deriving DecidableEq

namespace Store

def answer (s : Store) (a : Answer) : Store := { s with answers := s.answers ++ [a] }

def fail (s : Store) (failure : Failure) : Store := s.answer (.failed failure)

/-- Write the row. -/
def write (s : Store) (bundle : PreKeyBundle) (w : Write) : Store :=
  { s with bundle := some bundle, writes := s.writes ++ [w] }

end Store

/-- `if current_user.onion_address: …`: the user has no address yet, or this one. -/
def owns (R : Runtime) (currentUser : User) (onion : String) : Bool :=
  match truthy currentUser.onionAddress with
  | none => true
  | some own => onion = R.lower (strip own)

def Fetched.response (onion : String) (fetched : Fetched) : PreKeyBundleResponse where
  onionAddress    := onion
  identityKey     := fetched.bundle.identityKey
  signedPrekey    := fetched.bundle.signedPrekey
  signedPrekeySig := fetched.bundle.signedPrekeySig
  pqPrekey        := fetched.bundle.pqPrekey
  pqPrekeySig     := fetched.bundle.pqPrekeySig
  oneTimePrekey   := fetched.opk
  oneTimePqPrekey := fetched.opq
  publishedAt     := fetched.bundle.publishedAt
  opkPoolSize     := fetched.bundle.oneTimePrekeys.length

section

variable (R : Runtime) (onion : String)

/-- A request up to its first wait. One for another address has nothing to do with this row. -/
def startRequest (s : Store) : Request → Store × List Command
  | .publish currentUser body now =>
    match validateOnion R body.onionAddress with
    | .error e => (s.fail e, [])
    | .ok address =>
      if ¬ owns R currentUser address then
        (s.fail (.http 403 "Cannot publish pre-key bundle for a different onion address"), [])
      else if address ≠ onion then (s, [])
      else (s, [.publishCommit s.bundle body now])
  | .rotate currentUser body =>
    match validateOnion R body.onionAddress with
    | .error e => (s.fail e, [])
    | .ok address =>
      if ¬ owns R currentUser address then
        (s.fail (.http 403 "Cannot rotate pre-key bundle for a different onion address"), [])
      else if address ≠ onion then (s, [])
      else
        match s.bundle with
        | none =>
          (s.fail (.http 404 "No bundle published for this address. Call /publish first."), [])
        | some loaded => (s, [.rotateCommit loaded body])
  | .fetch onionAddress =>
    if ¬ (16 ≤ onionAddress.length ∧ onionAddress.length ≤ 128) then (s.fail .validation, [])
    else
      match validateOnion R onionAddress with
      | .error e => (s.fail e, [])
      | .ok address =>
        if address ≠ onion then (s, [])
        else
          match s.bundle with
          | none => (s.fail (.http 404 "No pre-key bundle found for this address"), [])
          | some loaded => (s, [.fetchCommit loaded s.writes.length])
  | .fillPool targetSize generated =>
    (s, [.extendPool (generated.take (targetSize - s.pool.length))])
  | .takeOneTimePrekey => ({ s with pool := s.pool.dropLast }, [])
  | .drainPool => ({ s with pool := [] }, [])
  | .syncPoolToDb => (s, [.syncSelect (s.pool.map KeyPair.pub)])

/-- What `fetch_bundle` takes from the bundle it has loaded. -/
def takeKeys (loaded : PreKeyBundle) (readAt : ℕ) : Fetched where
  bundle := loaded.pop
  opk    := loaded.oneTimePrekeys.head?
  opq    := loaded.oneTimePqPrekeys.head?
  readAt := readAt
  own    := if loaded.pop = loaded then 0 else 1

/-- After the first commit: with fewer than 20 keys left, up to 20 are taken from the pool. -/
def refillIfLow (fetched : Fetched) : Command :=
  let remaining := fetched.bundle.oneTimePrekeys.length
  if remaining < 20 then .fetchTake fetched (20 - remaining) [] else .respond fetched

/-- One command. The refills that `schedule_refill_if_low` starts are requests of their own. -/
def exec (_ : Unit) (_ : Bool) (command : Command) (s : Store) : Store × List Command :=
  match command with
  | .start r => startRequest R onion s r
  | .publishCommit loaded body now =>
    match loaded, s.bundle with
    | none, none =>
      ((s.write (body.bundle now) (.published body)).answer
        (.published body.oneTimePrekeys.length), [])
    | some loaded, some row =>
      ((s.write (loaded.update (body.bundle now) row) (.published body)).answer
        (.published body.oneTimePrekeys.length), [])
    -- an INSERT of a key that is there, an UPDATE of a row that is not
    | _, _ => (s.fail .internal, [])
  | .rotateCommit loaded body =>
    ({ s with bundle := s.bundle.map (loaded.update (body.bundle loaded)) }.answer .rotated, [])
  | .fetchCommit loaded readAt =>
    (match s.bundle with
      | some row =>
        if loaded.pop = loaded then s else s.write (loaded.update loaded.pop row) (.fetched readAt)
      | none => s, [refillIfLow (takeKeys loaded readAt)])
  | .fetchTake fetched turns added =>
    match turns, s.pool.getLast? with
    | turns + 1, some pair =>
      ({ s with pool := s.pool.dropLast }, [.fetchTake fetched turns (added ++ [pair.pub])])
    | _, _ => (s, [if added = [] then .respond fetched else .refillCommit fetched added])
  | .refillCommit fetched added =>
    (match s.bundle with
      | some row =>
        s.write (fetched.bundle.update (fetched.bundle.append added) row) (.fetched fetched.readAt)
      | none => s, [.respond fetched])
  | .respond fetched => (s.answer (.bundle (fetched.response onion)), [])
  | .extendPool added => ({ s with pool := s.pool ++ added }, [])
  | .syncSelect pubKeys =>
    match s.bundle with
    | none => (s, [])
    | some loaded => (s, [.syncCommit loaded pubKeys])
  | .syncCommit loaded pubKeys =>
    (match s.bundle with
      | some row =>
        if pubKeys = loaded.oneTimePrekeys then s
        else s.write (loaded.update { loaded with oneTimePrekeys := pubKeys } row) .synced
      | none => s, [])

end

/-! ## One-time keys -/

/-- The two lists of one-time keys. -/
inductive Column
  | oneTime
  | oneTimePq
deriving DecidableEq

def bundleKeys : Column → PreKeyBundle → List String
  | .oneTime, b => b.oneTimePrekeys
  | .oneTimePq, b => b.oneTimePqPrekeys

def bodyKeys : Column → PreKeyBundlePublish → List String
  | .oneTime, body => body.oneTimePrekeys
  | .oneTimePq, body => body.oneTimePqPrekeys

/-- The pool has X25519 keys only. -/
def poolKeys : Column → List String → List String
  | .oneTime, keys => keys
  | .oneTimePq, _ => []

def Fetched.keys : Column → Fetched → List String
  | .oneTime, fetched => fetched.opk.toList
  | .oneTimePq, fetched => fetched.opq.toList

def responseKeys : Column → PreKeyBundleResponse → List String
  | .oneTime, response => response.oneTimePrekey.toList
  | .oneTimePq, response => response.oneTimePqPrekey.toList

section

variable (c : Column)

def rowKeys (s : Store) : List String := (s.bundle.map (bundleKeys c)).getD []

def answerKeys : Answer → List String
  | .bundle response => responseKeys c response
  | _ => []

/-- The keys that fetches have returned. -/
def served (s : Store) : List String := s.answers.flatMap (answerKeys c)

theorem bundleKeys_body (body : PreKeyBundlePublish) (now : DateTime) :
    bundleKeys c (body.bundle now) = bodyKeys c body := by
  cases c <;> rfl

theorem served_answer (s : Store) (a : Answer) :
    served c (s.answer a) = served c s ++ answerKeys c a := by
  unfold served Store.answer
  rw [List.flatMap_append, List.flatMap_singleton]

theorem rowKeys_of_some {s : Store} {row : PreKeyBundle} (hrow : s.bundle = some row) :
    rowKeys c s = bundleKeys c row := by
  rw [rowKeys, hrow]
  rfl

variable (loaded current row : PreKeyBundle)

theorem keys_takeKeys (readAt : ℕ) :
    (takeKeys loaded readAt).keys c = (bundleKeys c loaded).head?.toList := by
  cases c <;> rfl

theorem responseKeys_response (onion : String) (fetched : Fetched) :
    responseKeys c (fetched.response onion) = fetched.keys c := by
  cases c <;> rfl

theorem bundleKeys_update : bundleKeys c (loaded.update current row) =
    PreKeyBundle.column (bundleKeys c loaded) (bundleKeys c current) (bundleKeys c row) := by
  cases c <;> rfl

theorem bundleKeys_pop : bundleKeys c loaded.pop = (bundleKeys c loaded).tail := by
  cases c <;> rfl

theorem bundleKeys_append (added : List String) :
    bundleKeys c (loaded.append added) = bundleKeys c loaded ++ poolKeys c added := by
  cases c
  · rfl
  · exact (List.append_nil _).symm

/-- Rotating leaves the key lists alone. -/
theorem bundleKeys_rotate (body : RotateSignedPreKeyRequest) :
    bundleKeys c (loaded.update (body.bundle loaded) row) = bundleKeys c row := by
  rw [bundleKeys_update]
  cases c <;> exact if_pos rfl

/-- A session that has loaded what is in the row leaves there what it has. -/
theorem bundleKeys_update_of_eq (h : bundleKeys c row = bundleKeys c loaded) :
    bundleKeys c (loaded.update current row) = bundleKeys c current := by
  rw [bundleKeys_update, PreKeyBundle.column]
  split_ifs with hsame
  · rw [h, hsame]
  · rfl

end

/-! ## What a request does up to its first wait -/

/-- All that `startRequest` can do. -/
inductive Started (s : Store) : Request → Store → List Command → Prop
  | failed {r} (failure : Failure) : Started s r (s.fail failure) []
  | elsewhere {r} : Started s r s []
  | publish {currentUser body now} :
      Started s (.publish currentUser body now) s [.publishCommit s.bundle body now]
  | rotate {currentUser body loaded} (hrow : s.bundle = some loaded) :
      Started s (.rotate currentUser body) s [.rotateCommit loaded body]
  | fetch {onionAddress loaded} (hrow : s.bundle = some loaded) :
      Started s (.fetch onionAddress) s [.fetchCommit loaded s.writes.length]
  | fill {targetSize generated} :
      Started s (.fillPool targetSize generated) s
        [.extendPool (generated.take (targetSize - s.pool.length))]
  | take : Started s .takeOneTimePrekey { s with pool := s.pool.dropLast } []
  | drain : Started s .drainPool { s with pool := [] } []
  | sync : Started s .syncPoolToDb s [.syncSelect (s.pool.map KeyPair.pub)]

theorem started (R : Runtime) (onion : String) (s : Store) (r : Request) :
    Started s r (startRequest R onion s r).1 (startRequest R onion s r).2 := by
  rcases r with ⟨currentUser, body, now⟩ | ⟨currentUser, body⟩ | onionAddress |
    ⟨targetSize, generated⟩ | _ | _ | _
  case publish =>
    rw [startRequest]
    rcases validateOnion R body.onionAddress with e | address
    · exact .failed e
    dsimp only
    -- the owner passes; for another address the request goes elsewhere
    by_cases howns : owns R currentUser address = true
    · rw [if_neg (not_not_intro howns)]
      split
      · exact .elsewhere
      · exact .publish
    · rw [if_pos howns]
      exact .failed _
  case rotate =>
    rw [startRequest]
    rcases validateOnion R body.onionAddress with e | address
    · exact .failed e
    dsimp only
    by_cases howns : owns R currentUser address = true
    · rw [if_neg (not_not_intro howns)]
      split
      · exact .elsewhere
      · rcases hrow : s.bundle with _ | loaded
        · exact .failed _
        · exact .rotate hrow
    · rw [if_pos howns]
      exact .failed _
  case fetch =>
    rw [startRequest]
    split
    · exact .failed _
    rcases validateOnion R onionAddress with e | address
    · exact .failed e
    dsimp only
    split
    · exact .elsewhere
    · rcases hrow : s.bundle with _ | loaded
      · exact .failed _
      · exact .fetch hrow
  case fillPool => exact .fill
  case takeOneTimePrekey => exact .take
  case drainPool => exact .drain
  case syncPoolToDb => exact .sync

/-! ## What a command does -/

/-- All that `exec` can do. -/
inductive Ran (onion : String) (s : Store) : Command → Store → List Command → Prop
  | start {r s' commands} (hstarted : Started s r s' commands) : Ran onion s (.start r) s' commands
  | insert {body now} (hrow : s.bundle = none) : Ran onion s (.publishCommit none body now)
      ((s.write (body.bundle now) (.published body)).answer
        (.published body.oneTimePrekeys.length)) []
  | publish {loaded row body now} (hrow : s.bundle = some row) :
      Ran onion s (.publishCommit (some loaded) body now)
        ((s.write (loaded.update (body.bundle now) row) (.published body)).answer
          (.published body.oneTimePrekeys.length)) []
  | conflict {loaded body now} : Ran onion s (.publishCommit loaded body now) (s.fail .internal) []
  | rotate {loaded body} : Ran onion s (.rotateCommit loaded body)
      ({ s with bundle := s.bundle.map (loaded.update (body.bundle loaded)) }.answer .rotated) []
  | fetch {loaded readAt row} (hrow : s.bundle = some row) (hpop : loaded.pop ≠ loaded) :
      Ran onion s (.fetchCommit loaded readAt)
        (s.write (loaded.update loaded.pop row) (.fetched readAt))
        [refillIfLow (takeKeys loaded readAt)]
  | fetchNothing {loaded readAt} (hpop : s.bundle = none ∨ loaded.pop = loaded) :
      Ran onion s (.fetchCommit loaded readAt) s [refillIfLow (takeKeys loaded readAt)]
  | take {fetched turns added pair} (hpair : s.pool.getLast? = some pair) :
      Ran onion s (.fetchTake fetched (turns + 1) added) { s with pool := s.pool.dropLast }
        [.fetchTake fetched turns (added ++ [pair.pub])]
  | takeNothing {fetched turns} : Ran onion s (.fetchTake fetched turns []) s [.respond fetched]
  | taken {fetched turns added} (hadded : added ≠ []) :
      Ran onion s (.fetchTake fetched turns added) s [.refillCommit fetched added]
  | refill {fetched added row} (hrow : s.bundle = some row) :
      Ran onion s (.refillCommit fetched added)
        (s.write (fetched.bundle.update (fetched.bundle.append added) row)
          (.fetched fetched.readAt)) [.respond fetched]
  | refillNothing {fetched added} (hrow : s.bundle = none) :
      Ran onion s (.refillCommit fetched added) s [.respond fetched]
  | respond {fetched} :
      Ran onion s (.respond fetched) (s.answer (.bundle (fetched.response onion))) []
  | extend {added} : Ran onion s (.extendPool added) { s with pool := s.pool ++ added } []
  | syncSelect {loaded pubKeys} (hrow : s.bundle = some loaded) :
      Ran onion s (.syncSelect pubKeys) s [.syncCommit loaded pubKeys]
  | syncSelectNothing {pubKeys} : Ran onion s (.syncSelect pubKeys) s []
  | syncCommit {loaded pubKeys row} (hrow : s.bundle = some row) :
      Ran onion s (.syncCommit loaded pubKeys)
        (s.write (loaded.update { loaded with oneTimePrekeys := pubKeys } row) .synced) []
  | syncCommitNothing {loaded pubKeys} : Ran onion s (.syncCommit loaded pubKeys) s []

theorem ran (R : Runtime) (onion : String) (command : Command) (s : Store) :
    Ran onion s command (exec R onion () false command s).1 (exec R onion () false command s).2 := by
  rcases command with r | ⟨loaded, body, now⟩ | ⟨loaded, body⟩ | ⟨loaded, readAt⟩ |
    ⟨fetched, turns, added⟩ | ⟨fetched, added⟩ | fetched | added | pubKeys | ⟨loaded, pubKeys⟩
  case start => exact .start (started R onion s r)
  case publishCommit =>
    unfold exec
    rcases loaded with _ | loaded
    · rcases hrow : s.bundle with _ | row
      · exact .insert hrow
      · exact .conflict
    · rcases hrow : s.bundle with _ | row
      · exact .conflict
      · exact .publish hrow
  case rotateCommit => exact .rotate
  case fetchCommit =>
    unfold exec
    rcases hrow : s.bundle with _ | row
    · exact .fetchNothing (.inl hrow)
    · dsimp only
      split_ifs with hpop
      · exact .fetchNothing (.inr hpop)
      · exact .fetch hrow hpop
  case fetchTake =>
    -- no turn or no key is left: what was taken is written, if any
    have hstop : Ran onion s (.fetchTake fetched turns added) s
        [if added = [] then .respond fetched else .refillCommit fetched added] := by
      split_ifs with hadded
      · exact hadded ▸ .takeNothing
      · exact .taken hadded
    unfold exec
    rcases turns with _ | turns
    · exact hstop
    · rcases hpair : s.pool.getLast? with _ | pair
      · exact hstop
      · exact .take hpair
  case refillCommit =>
    unfold exec
    rcases hrow : s.bundle with _ | row
    · exact .refillNothing hrow
    · exact .refill hrow
  case respond => exact .respond
  case extendPool => exact .extend
  case syncSelect =>
    unfold exec
    rcases hrow : s.bundle with _ | loaded
    · exact .syncSelectNothing
    · exact .syncSelect hrow
  case syncCommit =>
    unfold exec
    rcases hrow : s.bundle with _ | row
    · exact .syncCommitNothing
    · dsimp only
      split_ifs
      · exact .syncCommitNothing
      · exact .syncCommit hrow

/-! ## Runs -/

structure System where
  store    : Store
  threads  : List (Thread Unit Command)
  /-- The requests so far. -/
  requests : List Request

def System.init : System where
  store    := { bundle := none, pool := [], answers := [], writes := [] }
  threads  := []
  requests := []

/-- A request arrives, or thread `i` runs its next command. -/
inductive Event
  | request (r : Request)
  | run (i : ℕ)
deriving DecidableEq

section

variable (R : Runtime) (onion : String)

def apply (sys : System) : Event → Option System
  | .request r => some
      { sys with
        threads := sys.threads ++ [⟨(), [.start r]⟩]
        requests := sys.requests ++ [r] }
  | .run i => (stepThread (exec R onion) i false sys.threads sys.store).map fun out =>
      { sys with store := out.1, threads := out.2 }

end

end Keys

end AnonyMus.P2p
