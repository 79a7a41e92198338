import AnonyMus.P2p.Deliverable
import AnonyMus.P2p.Keys

/-!
# P2P node — who owns a bundle

`transports/p2p/routers/keys.py` and the `/info` endpoint of `routers/node.py`
over the accounts of a node and all bundles. A request waits between its reads
and its commit, and acts on what it has read; the UNIQUE constraint on addresses
is looked at by the commit.

* `exec` — one command of a request;
* `exec_cases` — all that a command can do to accounts and bundles;
* `Owned` — bundles are written by the account that has the address, accounts keep
  their addresses, and no two have the same one;
* `Rightful` — a rotation is written for the address of its account, and addresses
  are set where there is none;
* `owned_of_rightful` — then every state that is reached is `Owned`;
* `rotated_by_stranger` — a rotation by an account without an address.
-/

namespace AnonyMus.P2p.Ownership

open Interleave
open Keys (PreKeyBundlePublish PreKeyBundleResponse RotateSignedPreKeyRequest owns)
open Relay (strip)

/-! ## Requests and commands -/

/-- The user name is that of the session. `added` is what the pool has when it is asked. -/
inductive Request
  | publish (username : Option String) (body : PreKeyBundlePublish) (now : DateTime)
  | rotate (username : Option String) (body : RotateSignedPreKeyRequest)
  | fetch (username : Option String) (onionAddress : String) (added : List String)
  | info (username : Option String)
deriving DecidableEq

inductive Answer
  | published (opkCount : ℕ)
  | rotated
  | bundle (response : PreKeyBundleResponse)
  | info (onionAddress : Option String) (username : String)
  | failed (failure : Failure)
deriving DecidableEq

/-- What is left of a request between two waits. `own` tells that the account had the address of
the request when it was read; else it had none. -/
inductive Command
  | start (r : Request)
  | publishSelect (username : String) (own : Bool) (onion : String) (body : PreKeyBundlePublish)
      (now : DateTime)
  | publishCommit (username : String) (own : Bool) (onion : String) (loaded : Option PreKeyBundle)
      (body : PreKeyBundlePublish) (now : DateTime)
  | rotateSelect (username : String) (own : Bool) (onion : String)
      (body : RotateSignedPreKeyRequest)
  | rotateCommit (username : String) (own : Bool) (onion : String) (loaded : PreKeyBundle)
      (body : RotateSignedPreKeyRequest)
  | fetchSelect (onion : String) (added : List String)
  | fetchCommit (onion : String) (loaded : PreKeyBundle) (added : List String)
  | refillCommit (onion : String) (loaded : PreKeyBundle) (added : List String)
  | infoCommit (username : String) (onion : String)
deriving DecidableEq

/-- The accounts with their addresses, the bundles, the address that the old database knows, and
the answers so far. -/
structure Registry where
  users   : Dict String (Option String)
  bundles : Dict String PreKeyBundle
  config  : Option String
  answers : List Answer
  /-- For the proofs: the addresses that accounts were given. -/
  claimed : List (String × String)
  /-- For the proofs: which account has written the bundle of which address. -/
  writes  : List (String × String)

namespace Registry

variable (s : Registry)

def answer (a : Answer) : Registry := { s with answers := s.answers ++ [a] }

def fail (failure : Failure) : Registry := s.answer (.failed failure)

/-- Another account has the address, in these letters. -/
def Taken (username onion : String) : Prop :=
  ∃ e ∈ s.users.entries, e.1 ≠ username ∧ e.2 = some onion

instance (username onion : String) : Decidable (s.Taken username onion) :=
  inferInstanceAs (Decidable (∃ e ∈ s.users.entries, e.1 ≠ username ∧ e.2 = some onion))

/-- The UPDATE of an account; none if the address is taken. -/
def setAddress? (username onion : String) : Option Registry :=
  if s.Taken username onion then none
  else some
    { s with
      users := s.users.insert username (some onion)
      claimed := s.claimed ++ [(username, onion)] }

def write (username onion : String) (bundle : PreKeyBundle) : Registry :=
  { s with
    bundles := s.bundles.insert onion bundle
    writes := s.writes ++ [(username, onion)] }

/-- The INSERT of a bundle, or its UPDATE; none if a row is there after all, or is not. -/
def publish? (username onion : String) (loaded : Option PreKeyBundle) (body : PreKeyBundlePublish)
    (now : DateTime) (s : Registry) : Option Registry :=
  match loaded, s.bundles.get? onion with
  | none, none => some (s.write username onion (body.bundle now))
  | some loaded, some row =>
    some (s.write username onion (loaded.update (body.bundle now) row))
  | _, _ => none

/-- A commit that changes the lists of one-time keys only. -/
def setKeys (onion : String) (loaded current : PreKeyBundle) : Registry :=
  match s.bundles.get? onion with
  | some row => { s with bundles := s.bundles.insert onion (loaded.update current row) }
  | none => s

end Registry

section

variable (R : Runtime)

/-- `get_current_user` of the auth router. -/
def currentUser (username : Option String) (s : Registry) : Except Failure User :=
  match truthy username with
  | none => .error (.http 401 "Not authenticated")
  | some username =>
    match s.users.get? username with
    | none => .error (.http 401 "User not found")
    | some onionAddress => .ok ⟨username, onionAddress⟩

/-- The account has an address. -/
def configured (user : User) : Bool := (truthy user.onionAddress).isSome

/-- Up to the first wait after `get_current_user`. -/
def startRequest (s : Registry) : Request → Registry × List Command
  | .publish username body now =>
    match currentUser username s with
    | .error e => (s.fail e, [])
    | .ok user =>
      match validateOnion R body.onionAddress with
      | .error e => (s.fail e, [])
      | .ok onion =>
        if ¬ owns R user onion then
          (s.fail (.http 403 "Cannot publish pre-key bundle for a different onion address"), [])
        else (s, [.publishSelect user.username (configured user) onion body now])
  | .rotate username body =>
    match currentUser username s with
    | .error e => (s.fail e, [])
    | .ok user =>
      match validateOnion R body.onionAddress with
      | .error e => (s.fail e, [])
      | .ok onion =>
        if ¬ owns R user onion then
          (s.fail (.http 403 "Cannot rotate pre-key bundle for a different onion address"), [])
        else (s, [.rotateSelect user.username (configured user) onion body])
  | .fetch username onionAddress added =>
    match currentUser username s with
    | .error e => (s.fail e, [])
    | .ok _ =>
      if ¬ (16 ≤ onionAddress.length ∧ onionAddress.length ≤ 128) then (s.fail .validation, [])
      else
        match validateOnion R onionAddress with
        | .error e => (s.fail e, [])
        | .ok onion => (s, [.fetchSelect onion added])
  | .info username =>
    match currentUser username s with
    | .error e => (s.fail e, [])
    | .ok user =>
      match truthy user.onionAddress with
      | some onion => (s.answer (.info onion user.username), [])
      | none =>
        match truthy s.config with
        | none => (s.answer (.info s.config user.username), [])
        | some onion => (s, [.infoCommit user.username onion])

/-- One command. -/
def exec (_ : Unit) (_ : Bool) (command : Command) (s : Registry) : Registry × List Command :=
  match command with
  | .start r => startRequest R s r
  | .publishSelect username own onion body now =>
    (s, [.publishCommit username own onion (s.bundles.get? onion) body now])
  | .publishCommit username own onion loaded body now =>
    -- the UPDATE of the account and the write of the bundle are one transaction
    match (if own then some s else s.setAddress? username onion).bind
        (Registry.publish? username onion loaded body now) with
    | some s => (s.answer (.published body.oneTimePrekeys.length), [])
    | none => (s.fail .internal, [])
  | .rotateSelect username own onion body =>
    match s.bundles.get? onion with
    | none =>
      (s.fail (.http 404 "No bundle published for this address. Call /publish first."), [])
    | some loaded => (s, [.rotateCommit username own onion loaded body])
  | .rotateCommit username _ onion loaded body =>
    match s.bundles.get? onion with
    | some row =>
      ((s.write username onion (loaded.update (body.bundle loaded) row)).answer .rotated, [])
    | none => (s.answer .rotated, [])
  | .fetchSelect onion added =>
    match s.bundles.get? onion with
    | none => (s.fail (.http 404 "No pre-key bundle found for this address"), [])
    | some loaded => (s, [.fetchCommit onion loaded added])
  | .fetchCommit onion loaded added =>
    let fetched := Keys.takeKeys loaded 0
    let added := added.take (20 - fetched.bundle.oneTimePrekeys.length)
    ((s.setKeys onion loaded loaded.pop).answer (.bundle (fetched.response onion)),
      if added = [] then [] else [.refillCommit onion loaded.pop added])
  | .refillCommit onion loaded added => (s.setKeys onion loaded (loaded.append added), [])
  | .infoCommit username onion =>
    -- a failure of the commit is passed over
    (((s.setAddress? username onion).getD s).answer (.info (some onion) username), [])

end

/-! ## The node -/

structure System where
  registry : Registry
  threads  : List (Thread Unit Command)

/-- A request arrives, thread `i` runs its next command, somebody registers, or Tor has started. -/
inductive Event
  | request (r : Request)
  | run (i : ℕ)
  | register (username : String)
  | configure (onion : String)
deriving DecidableEq

def apply (R : Runtime) (sys : System) : Event → Option System
  | .request r => some { sys with threads := sys.threads ++ [⟨(), [.start r]⟩] }
  | .run i => (stepThread (exec R) i false sys.threads sys.registry).map fun out =>
      { registry := out.1, threads := out.2 }
  | .register username =>
    if sys.registry.users.get? username = none then
      some { sys with
        registry := { sys.registry with users := sys.registry.users.insert username none } }
    else none
  | .configure onion =>
    some { sys with registry := { sys.registry with config := some onion } }

def System.init : System where
  registry := ⟨.empty, .empty, none, [], [], []⟩
  threads  := []

/-! ## What a command does -/

/-- The parts of a bundle that are not one-time keys. -/
structure Secured where
  identityKey     : String
  signedPrekey    : String
  signedPrekeySig : String
  pqPrekey        : String
  pqPrekeySig     : String
deriving DecidableEq

def securedOf (bundle : PreKeyBundle) : Secured :=
  ⟨bundle.identityKey, bundle.signedPrekey, bundle.signedPrekeySig, bundle.pqPrekey,
    bundle.pqPrekeySig⟩

def Registry.secured (s : Registry) (onion : String) : Option Secured :=
  (s.bundles.get? onion).map securedOf

/-- The account and the address, if the command writes a bundle only. -/
def Command.writes? : Command → Option (String × String)
  | publishCommit username own onion _ _ _ => if own then some (username, onion) else none
  | rotateCommit username _ onion _ _ => some (username, onion)
  | _ => none

/-- The account and the address, if the command sets an address. -/
def Command.sets? : Command → Option (String × String)
  | publishCommit username own onion _ _ _ => if own then none else some (username, onion)
  | infoCommit username onion => some (username, onion)
  | _ => none

section

variable {R : Runtime} {s : Registry}

theorem secured_write (username onion onion' : String) (bundle : PreKeyBundle) (h : onion' ≠ onion) :
    (s.write username onion bundle).secured onion' = s.secured onion' := by
  unfold Registry.secured Registry.write
  rw [Dict.get?_insert, if_neg h]

/-- A session that has changed key lists only leaves the rest of the row alone. -/
theorem secured_setKeys {onion : String} {loaded current : PreKeyBundle}
    (h : securedOf current = securedOf loaded) (onion' : String) :
    (s.setKeys onion loaded current).secured onion' = s.secured onion' := by
  unfold Registry.setKeys
  rcases hrow : s.bundles.get? onion with _ | row
  · rfl
  · unfold Registry.secured
    dsimp only
    rw [Dict.get?_insert]
    split_ifs with honion
    · subst honion
      rw [hrow]
      unfold securedOf at h
      obtain ⟨h₁, h₂, h₃, h₄, h₅⟩ := Secured.mk.inj h
      unfold securedOf PreKeyBundle.update PreKeyBundle.column
      simp [h₁, h₂, h₃, h₄, h₅]
    · rfl

/-- What nothing has touched but the answers and the key lists. -/
structure Same (s s' : Registry) : Prop where
  users   : s'.users = s.users
  claimed : s'.claimed = s.claimed
  writes  : s'.writes = s.writes
  secured : ∀ onion, s'.secured onion = s.secured onion

theorem Same.answer (a : Answer) : Same s (s.answer a) := ⟨rfl, rfl, rfl, fun _ => rfl⟩

theorem Same.setKeys {onion : String} {loaded current : PreKeyBundle}
    (h : securedOf current = securedOf loaded) : Same s (s.setKeys onion loaded current) := by
  have hrest : (s.setKeys onion loaded current).users = s.users ∧
      (s.setKeys onion loaded current).claimed = s.claimed ∧
        (s.setKeys onion loaded current).writes = s.writes := by
    unfold Registry.setKeys
    rcases s.bundles.get? onion with _ | row <;> exact ⟨rfl, rfl, rfl⟩
  exact ⟨hrest.1, hrest.2.1, hrest.2.2, secured_setKeys h⟩

/-! ## Addresses -/

/-- The address in these letters, or in others with blanks around it. -/
def Names (R : Runtime) (address onion : String) : Prop :=
  address = onion ∨ R.lower (strip address) = onion

/-- The account has the address. -/
def Registry.Claims (R : Runtime) (s : Registry) (username onion : String) : Prop :=
  ∃ address, s.users.get? username = some (some address) ∧ Names R address onion

/-- What the rest of a request relies on. -/
def Backed (R : Runtime) (s : Registry) : Command → Prop
  | .publishSelect username own onion _ _ => own = true → s.Claims R username onion
  | .publishCommit username own onion _ _ _ => own = true → s.Claims R username onion
  | .rotateSelect username own onion _ => own = true → s.Claims R username onion
  | .rotateCommit username own onion _ _ => own = true → s.Claims R username onion
  | .start _ | .fetchSelect _ _ | .fetchCommit _ _ _ | .refillCommit _ _ _ | .infoCommit _ _ => True

theorem currentUser_eq_ok {username : Option String} {user : User}
    (h : currentUser username s = .ok user) :
    s.users.get? user.username = some user.onionAddress := by
  unfold currentUser at h
  rcases hname : truthy username with _ | name
  · rw [hname] at h
    cases h
  · rw [hname] at h
    dsimp only at h
    rcases huser : s.users.get? name with _ | onionAddress
    · rw [huser] at h
      cases h
    · rw [huser] at h
      obtain rfl := Except.ok.inj h
      exact huser

/-- An account that passes the check with an address has the address of the request. -/
theorem claims_of_owns {user : User} {onion : String}
    (huser : s.users.get? user.username = some user.onionAddress) (howns : owns R user onion = true)
    (hconfigured : configured user = true) : s.Claims R user.username onion := by
  unfold configured at hconfigured
  unfold owns at howns
  rcases haddress : truthy user.onionAddress with _ | address
  · rw [haddress] at hconfigured
    cases hconfigured
  · rw [haddress] at howns
    refine ⟨address, ?_, .inr (of_decide_eq_true howns).symm⟩
    rw [huser, (Option.filter_eq_some_iff.mp haddress).1]

/-- A request reads up to its first wait. -/
theorem startRequest_cases (r : Request) : Same s (startRequest R s r).1 ∧
    ∀ command ∈ (startRequest R s r).2, Backed R s command := by
  have hfail : ∀ failure, Same s (s.fail failure) ∧ ∀ command ∈ ([] : List Command),
      Backed R s command := fun failure => ⟨.answer _, by simp⟩
  rcases r with ⟨username, body, now⟩ | ⟨username, body⟩ | ⟨username, onionAddress, added⟩ | username
  · rw [startRequest]
    rcases huser : currentUser username s with e | user
    · exact hfail e
    dsimp only
    rcases validateOnion R body.onionAddress with e | onion
    · exact hfail e
    dsimp only
    split_ifs with howns
    · refine ⟨⟨rfl, rfl, rfl, fun _ => rfl⟩, List.forall_mem_singleton.mpr ?_⟩
      exact claims_of_owns (currentUser_eq_ok huser) howns
    · exact hfail _
  · rw [startRequest]
    rcases huser : currentUser username s with e | user
    · exact hfail e
    dsimp only
    rcases validateOnion R body.onionAddress with e | onion
    · exact hfail e
    dsimp only
    split_ifs with howns
    · refine ⟨⟨rfl, rfl, rfl, fun _ => rfl⟩, List.forall_mem_singleton.mpr ?_⟩
      exact claims_of_owns (currentUser_eq_ok huser) howns
    · exact hfail _
  · rw [startRequest]
    rcases currentUser username s with e | user
    · exact hfail e
    dsimp only
    split_ifs
    · rcases validateOnion R onionAddress with e | onion
      · exact hfail e
      · exact ⟨⟨rfl, rfl, rfl, fun _ => rfl⟩, List.forall_mem_singleton.mpr trivial⟩
    · exact hfail _
  · rw [startRequest]
    rcases currentUser username s with e | user
    · exact hfail e
    dsimp only
    rcases truthy user.onionAddress with _ | onion
    · dsimp only
      rcases truthy s.config with _ | onion
      · exact ⟨.answer _, by simp⟩
      · exact ⟨⟨rfl, rfl, rfl, fun _ => rfl⟩, List.forall_mem_singleton.mpr trivial⟩
    · exact ⟨.answer _, by simp⟩

theorem setAddress?_cases (username onion : String) (s : Registry) :
    s.setAddress? username onion = none ∨ ¬ s.Taken username onion ∧
      s.setAddress? username onion = some
        { s with
          users := s.users.insert username (some onion)
          claimed := s.claimed ++ [(username, onion)] } := by
  unfold Registry.setAddress?
  split_ifs with htaken
  · exact .inl rfl
  · exact .inr ⟨htaken, rfl⟩

theorem publish?_cases (username onion : String) (loaded : Option PreKeyBundle)
    (body : PreKeyBundlePublish) (now : DateTime) (s : Registry) :
    Registry.publish? username onion loaded body now s = none ∨
      ∃ bundle, Registry.publish? username onion loaded body now s =
        some (s.write username onion bundle) := by
  unfold Registry.publish?
  rcases loaded with _ | loaded <;> rcases s.bundles.get? onion with _ | row
  · exact .inr ⟨_, rfl⟩
  · exact .inl rfl
  · exact .inl rfl
  · exact .inr ⟨_, rfl⟩

/-- A command writes nothing but answers and key lists, or a bundle, or the address of an account
that no other has, and perhaps its bundle. -/
theorem exec_cases (command : Command) (s : Registry) :
    Same s (exec R () false command s).1 ∨
    (∃ username onion, command.writes? = some (username, onion) ∧
      (exec R () false command s).1.users = s.users ∧
      (exec R () false command s).1.claimed = s.claimed ∧
      (exec R () false command s).1.writes = s.writes ++ [(username, onion)] ∧
      ∀ onion', onion' ≠ onion → (exec R () false command s).1.secured onion' = s.secured onion') ∨
    ∃ username onion, command.sets? = some (username, onion) ∧ ¬ s.Taken username onion ∧
      (exec R () false command s).1.users = s.users.insert username (some onion) ∧
      (exec R () false command s).1.claimed = s.claimed ++ [(username, onion)] ∧
      ((exec R () false command s).1.writes = s.writes ∨
        (exec R () false command s).1.writes = s.writes ++ [(username, onion)]) ∧
      ∀ onion', (onion' ≠ onion ∨ (exec R () false command s).1.writes = s.writes) →
        (exec R () false command s).1.secured onion' = s.secured onion' := by
  rcases command with r | ⟨username, own, onion, body, now⟩ | ⟨username, own, onion, loaded, body, now⟩ |
    ⟨username, own, onion, body⟩ | ⟨username, own, onion, loaded, body⟩ | ⟨onion, added⟩ |
    ⟨onion, loaded, added⟩ | ⟨onion, loaded, added⟩ | ⟨username, onion⟩
  case publishCommit =>
    rw [exec]
    rcases own with _ | _
    · -- the account has no address: it gets this one together with the bundle, or nothing
      rw [if_neg Bool.false_ne_true]
      rcases setAddress?_cases username onion s with hnone | ⟨hfree, hset⟩
      · rw [hnone]
        exact .inl (.answer _)
      · rw [hset, Option.bind_some]
        rcases publish?_cases username onion loaded body now { s with
            users := s.users.insert username (some onion)
            claimed := s.claimed ++ [(username, onion)] } with hnone | ⟨bundle, hwrite⟩
        · rw [hnone]
          exact .inl (.answer _)
        · rw [hwrite]
          refine .inr (.inr ⟨username, onion, rfl, hfree, rfl, rfl, .inr rfl, ?_⟩)
          rintro onion' (hother | hsame)
          · exact secured_write username onion onion' bundle hother
          · exact absurd (congrArg List.length hsame) (by simp [Registry.write, Registry.answer])
    · -- the account has its address, so only the bundle is written
      rw [if_pos rfl, Option.bind_some]
      rcases publish?_cases username onion loaded body now s with hnone | ⟨bundle, hwrite⟩
      · rw [hnone]
        exact .inl (.answer _)
      · rw [hwrite]
        exact .inr (.inl ⟨username, onion, rfl, rfl, rfl, rfl,
          fun onion' hother => secured_write username onion onion' bundle hother⟩)
  case rotateCommit =>
    rw [exec]
    rcases s.bundles.get? onion with _ | row
    · exact .inl (.answer _)
    · exact .inr (.inl ⟨username, onion, rfl, rfl, rfl, rfl,
        fun onion' hother => secured_write username onion onion' _ hother⟩)
  case infoCommit =>
    rw [exec]
    rcases setAddress?_cases username onion s with hnone | ⟨hfree, hset⟩
    · rw [hnone]
      exact .inl (.answer _)
    · rw [hset]
      exact .inr (.inr ⟨username, onion, rfl, hfree, rfl, rfl, .inl rfl, fun _ _ => rfl⟩)
  case start => exact .inl (startRequest_cases r).1
  case publishSelect => exact .inl ⟨rfl, rfl, rfl, fun _ => rfl⟩
  case rotateSelect =>
    rw [exec]
    rcases s.bundles.get? onion with _ | loaded
    · exact .inl (.answer _)
    · exact .inl ⟨rfl, rfl, rfl, fun _ => rfl⟩
  case fetchSelect =>
    rw [exec]
    rcases s.bundles.get? onion with _ | loaded
    · exact .inl (.answer _)
    · exact .inl ⟨rfl, rfl, rfl, fun _ => rfl⟩
  case fetchCommit =>
    have hkeys : Same s (s.setKeys onion loaded loaded.pop) := .setKeys rfl
    exact .inl ⟨hkeys.users, hkeys.claimed, hkeys.writes, hkeys.secured⟩
  case refillCommit => exact .inl (.setKeys rfl)

/-- What a command leads to is backed by what has been read. -/
theorem backed_exec (command : Command) (hbacked : Backed R s command) :
    ∀ command' ∈ (exec R () false command s).2, Backed R s command' := by
  have hnil : ∀ command' ∈ ([] : List Command), Backed R s command' := by simp
  rcases command with r | ⟨username, own, onion, body, now⟩ | ⟨username, own, onion, loaded, body, now⟩ |
    ⟨username, own, onion, body⟩ | ⟨username, own, onion, loaded, body⟩ | ⟨onion, added⟩ |
    ⟨onion, loaded, added⟩ | ⟨onion, loaded, added⟩ | ⟨username, onion⟩
  case start => exact (startRequest_cases r).2
  case publishSelect => exact List.forall_mem_singleton.mpr hbacked
  case publishCommit =>
    rw [exec]
    split <;> exact hnil
  case rotateSelect =>
    rw [exec]
    rcases s.bundles.get? onion with _ | loaded
    · exact hnil
    · exact List.forall_mem_singleton.mpr hbacked
  case rotateCommit =>
    rw [exec]
    rcases s.bundles.get? onion with _ | row <;> exact hnil
  case fetchSelect =>
    rw [exec]
    rcases s.bundles.get? onion with _ | loaded
    · exact hnil
    · exact List.forall_mem_singleton.mpr trivial
  case fetchCommit =>
    rw [exec]
    dsimp only
    split_ifs
    · exact hnil
    · exact List.forall_mem_singleton.mpr trivial
  case refillCommit => exact hnil
  case infoCommit => exact hnil

/-! ## Ownership -/

/-- What accounts and bundles are meant to be. -/
structure Owned (R : Runtime) (s : Registry) : Prop where
  /-- Who has written a bundle has its address. -/
  written : ∀ w ∈ s.writes, s.Claims R w.1 w.2
  /-- An account still has the address that it was given. -/
  kept    : ∀ c ∈ s.claimed, s.users.get? c.1 = some (some c.2)
  unique  : ∀ username username' onion, s.Claims R username onion → s.Claims R username' onion →
    username = username'

/-- The account has no address, or this one, and no other account has this one in other letters. -/
def Settable (R : Runtime) (s : Registry) (username onion : String) : Prop :=
  (s.users.get? username = some none ∨ s.users.get? username = some (some onion)) ∧
    ∀ e ∈ s.users.entries, e.1 ≠ username → ∀ address ∈ e.2,
      Names R address onion ∨ Names R onion address ∨
        R.lower (strip address) = R.lower (strip onion) → address = onion

/-- When an address is set, it may be; when a rotation by an account that had no address is
written, the account has the address of the bundle by now. -/
def Rightful (R : Runtime) (s : Registry) : Command → Prop
  | .publishCommit username own onion _ _ _ => own = false → Settable R s username onion
  | .rotateCommit username own onion _ _ => own = false → s.Claims R username onion
  | .infoCommit username onion => Settable R s username onion
  | .start _ | .publishSelect _ _ _ _ _ | .rotateSelect _ _ _ _ | .fetchSelect _ _
  | .fetchCommit _ _ _ | .refillCommit _ _ _ => True

/-- The command that thread `i` runs next. -/
def System.next (sys : System) (i : ℕ) : Option Command :=
  sys.threads[i]?.bind fun thread => thread.todo.head?

def RightfulEvent (R : Runtime) (sys : System) : Event → Prop
  | .run i => ∀ command ∈ sys.next i, Rightful R sys.registry command
  | .request _ | .register _ | .configure _ => True

/-- `s'` comes after `s`, and every address is still where it was. -/
def Keeps (s s' : Registry) : Prop :=
  ∀ username address, s.users.get? username = some (some address) →
    s'.users.get? username = some (some address)

variable {s' : Registry}

theorem Registry.Claims.mono {username onion : String} (h : s.Claims R username onion)
    (hkeeps : Keeps s s') : s'.Claims R username onion := by
  obtain ⟨address, haddress, hnames⟩ := h
  exact ⟨address, hkeeps username address haddress, hnames⟩

theorem Backed.mono {command : Command} (h : Backed R s command) (hkeeps : Keeps s s') :
    Backed R s' command := by
  cases command <;> first | exact fun hown => (h hown).mono hkeeps | trivial

/-- A command that writes a bundle only is of an account that has the address. -/
theorem claims_of_writes {command : Command} {username onion : String}
    (hwrites : command.writes? = some (username, onion)) (hbacked : Backed R s command)
    (hrightful : Rightful R s command) : s.Claims R username onion := by
  rcases command with _ | _ | ⟨username, own, onion, loaded, body, now⟩ | _ |
    ⟨username, own, onion, loaded, body⟩ | _ | _ | _ | _ <;> try cases hwrites
  · rcases own with _ | _
    · cases hwrites
    · cases hwrites
      exact hbacked rfl
  · rcases own with _ | _
    · exact hrightful rfl
    · exact hbacked rfl

theorem settable_of_sets {command : Command} {username onion : String}
    (hsets : command.sets? = some (username, onion)) (hrightful : Rightful R s command) :
    Settable R s username onion := by
  rcases command with _ | _ | ⟨username, own, onion, loaded, body, now⟩ | _ | _ | _ | _ | _ |
    ⟨username, onion⟩ <;> try cases hsets
  · rcases own with _ | _
    · cases hsets
      exact hrightful rfl
    · cases hsets
  · exact hrightful

theorem keeps_of_settable {username onion : String} (hsettable : Settable R s username onion)
    (husers : s'.users = s.users.insert username (some onion)) : Keeps s s' := by
  intro username' address haddress
  rw [husers, Dict.get?_insert]
  split_ifs with husername
  · subst husername
    rcases hsettable.1 with hnone | hsome
    · rw [hnone] at haddress
      cases haddress
    · rw [← haddress, hsome]
  · exact haddress

/-- An address that may be set, and is not taken, tells the accounts apart. -/
theorem unique_of_settable {username onion : String} (hsettable : Settable R s username onion)
    (hfree : ¬ s.Taken username onion)
    (hunique : ∀ username username' onion, s.Claims R username onion →
      s.Claims R username' onion → username = username')
    (husers : s'.users = s.users.insert username (some onion)) :
    ∀ username username' onion, s'.Claims R username onion → s'.Claims R username' onion →
      username = username' := by
  -- another account with a name of the new address has this address, and so it is taken
  have hother : ∀ username' onion', username' ≠ username → s.Claims R username' onion' →
      ¬ Names R onion onion' := by
    rintro username' onion' hne ⟨address, haddress, hnames⟩ hnames'
    have hentry := Dict.mem_entries_iff.mpr haddress
    have hoverlap : Names R address onion ∨ Names R onion address ∨
        R.lower (strip address) = R.lower (strip onion) := by
      rcases hnames with rfl | hnames
      · exact .inr (.inl hnames')
      · rcases hnames' with rfl | hnames'
        · exact .inl (.inr hnames)
        · exact .inr (.inr (hnames.trans hnames'.symm))
    obtain rfl := hsettable.2 _ hentry hne address rfl hoverlap
    exact hfree ⟨_, hentry, hne, rfl⟩
  have hclaims : ∀ username' onion', s'.Claims R username' onion' →
      username' = username ∧ Names R onion onion' ∨
        username' ≠ username ∧ s.Claims R username' onion' := by
    rintro username' onion' ⟨address, haddress, hnames⟩
    rw [husers, Dict.get?_insert] at haddress
    split_ifs at haddress with husername
    · obtain rfl := Option.some.inj (Option.some.inj haddress)
      exact .inl ⟨husername, hnames⟩
    · exact .inr ⟨husername, address, haddress, hnames⟩
  intro u u' onion' hu hu'
  rcases hclaims u onion' hu with ⟨rfl, hnames⟩ | ⟨hne, hu⟩
  · rcases hclaims u' onion' hu' with ⟨rfl, -⟩ | ⟨hne', hu'⟩
    · rfl
    · exact absurd hnames (hother u' onion' hne' hu')
  · rcases hclaims u' onion' hu' with ⟨rfl, hnames'⟩ | ⟨hne', hu'⟩
    · exact absurd hnames' (hother u onion' hne hu)
    · exact hunique u u' onion' hu hu'

/-- Owned stays owned when addresses are kept and the new writes and addresses are good. -/
theorem Owned.mono (h : Owned R s) (hkeeps : Keeps s s')
    (hwrites : ∀ w ∈ s'.writes, w ∈ s.writes ∨ s'.Claims R w.1 w.2)
    (hclaimed : ∀ c ∈ s'.claimed, c ∈ s.claimed ∨ s'.users.get? c.1 = some (some c.2))
    (hunique : ∀ username username' onion, s'.Claims R username onion →
      s'.Claims R username' onion → username = username') : Owned R s' := by
  refine ⟨?_, ?_, hunique⟩
  · intro w hw
    rcases hwrites w hw with hold | hnew
    · exact (h.written w hold).mono hkeeps
    · exact hnew
  · intro c hc
    rcases hclaimed c hc with hold | hnew
    · exact hkeeps _ _ (h.kept c hold)
    · exact hnew

theorem owned_exec {command : Command} (h : Owned R s) (hbacked : Backed R s command)
    (hrightful : Rightful R s command) :
    Owned R (exec R () false command s).1 ∧ Keeps s (exec R () false command s).1 := by
  rcases exec_cases command s with hsame |
    ⟨username, onion, hcommand, husers, hclaimed, hwrites, -⟩ |
    ⟨username, onion, hcommand, hfree, husers, hclaimed, hwrites, -⟩
  · have hkeeps : Keeps s (exec R () false command s).1 := by
      intro username address haddress
      rw [hsame.users]
      exact haddress
    refine ⟨h.mono hkeeps ?_ ?_ ?_, hkeeps⟩
    · rw [hsame.writes]
      exact fun w hw => .inl hw
    · rw [hsame.claimed]
      exact fun c hc => .inl hc
    · unfold Registry.Claims
      rw [hsame.users]
      exact h.unique
  · -- a bundle is written under an address that the account claims
    have hclaims := claims_of_writes hcommand hbacked hrightful
    have hkeeps : Keeps s (exec R () false command s).1 := by
      intro username address haddress
      rw [husers]
      exact haddress
    refine ⟨h.mono hkeeps ?_ ?_ ?_, hkeeps⟩
    · intro w hw
      rw [hwrites] at hw
      rcases List.mem_append.mp hw with hw | hw
      · exact .inl hw
      · rw [List.mem_singleton.mp hw]
        exact .inr (hclaims.mono hkeeps)
    · rw [hclaimed]
      exact fun c hc => .inl hc
    · unfold Registry.Claims
      rw [husers]
      exact h.unique
  · -- an account takes an address that no other has
    have hsettable := settable_of_sets hcommand hrightful
    have hkeeps := keeps_of_settable hsettable husers
    have hset : (exec R () false command s).1.users.get? username = some (some onion) := by
      rw [husers, Dict.get?_insert, if_pos rfl]
    refine ⟨h.mono hkeeps ?_ ?_ (unique_of_settable hsettable hfree h.unique husers), hkeeps⟩
    · intro w hw
      rcases hwrites with hnone | hwrites
      · rw [hnone] at hw
        exact .inl hw
      · rw [hwrites] at hw
        rcases List.mem_append.mp hw with hw | hw
        · exact .inl hw
        · rw [List.mem_singleton.mp hw]
          exact .inr ⟨onion, hset, .inl rfl⟩
    · intro c hc
      rw [hclaimed] at hc
      rcases List.mem_append.mp hc with hc | hc
      · exact .inl hc
      · rw [List.mem_singleton.mp hc]
        exact .inr hset

/-! ## Runs -/

/-- The accounts and bundles are in order, and so is what the requests rely on. -/
structure Inv (R : Runtime) (sys : System) : Prop where
  owned  : Owned R sys.registry
  backed : ∀ command ∈ pending sys.threads, Backed R sys.registry command

theorem inv_init : Inv R System.init where
  owned := by
    refine ⟨?_, ?_, ?_⟩
    · intro w hw
      cases hw
    · intro c hc
      cases hc
    · rintro username username' onion ⟨address, haddress, -⟩
      cases haddress
  backed := by
    intro command hcommand
    cases hcommand

theorem inv_apply {sys sys' : System} {e : Event} (h : Inv R sys)
    (hrightful : RightfulEvent R sys e) (happly : apply R sys e = some sys') : Inv R sys' := by
  rcases e with r | i | username | onion
  · obtain rfl := Option.some.inj happly
    refine ⟨h.owned, ?_⟩
    rw [pending_append, List.forall_mem_append]
    exact ⟨h.backed, List.forall_mem_singleton.mpr trivial⟩
  · obtain ⟨⟨s', threads'⟩, hstep, rfl⟩ := Option.map_eq_some_iff.mp happly
    obtain ⟨l₁, loc, command, rest, l₂, hget, hsplit, hs', hthreads⟩ := stepThread_cases hstep
    have hnext : command ∈ sys.next i := by
      unfold System.next
      rw [hget]
      rfl
    have hpending : command ∈ pending sys.threads := by
      rw [hsplit, mem_pending_at]
      exact .inl List.mem_cons_self
    have hbacked := h.backed command hpending
    obtain ⟨howned, hkeeps⟩ := owned_exec h.owned hbacked (hrightful command hnext)
    subst hs'
    refine ⟨howned, ?_⟩
    show ∀ command' ∈ pending threads', _
    rw [hthreads]
    intro command' hcommand'
    rcases mem_pending_step command hcommand' with hnew | hold
    · exact (backed_exec command hbacked command' hnew).mono hkeeps
    · rw [← hsplit] at hold
      exact (h.backed command' hold).mono hkeeps
  · -- a new account has no address, so no claim changes
    unfold apply at happly
    dsimp only at happly
    split_ifs at happly with hnew
    obtain rfl := Option.some.inj happly
    have hget : ∀ username' address,
        (sys.registry.users.insert username none).get? username' = some (some address) ↔
          sys.registry.users.get? username' = some (some address) := by
      intro username' address
      rw [Dict.get?_insert]
      split_ifs with husername
      · rw [husername, hnew]
        simp
      · rfl
    have hkeeps : Keeps sys.registry
        { sys.registry with users := sys.registry.users.insert username none } :=
      fun username' address haddress => (hget username' address).mpr haddress
    refine ⟨h.owned.mono hkeeps (fun w hw => .inl hw) (fun c hc => .inl hc) ?_,
      fun command hcommand => (h.backed command hcommand).mono hkeeps⟩
    rintro u u' onion ⟨address, haddress, hnames⟩ ⟨address', haddress', hnames'⟩
    exact h.owned.unique u u' onion ⟨address, (hget _ _).mp haddress, hnames⟩
      ⟨address', (hget _ _).mp haddress', hnames'⟩
  · obtain rfl := Option.some.inj happly
    exact ⟨⟨h.owned.written, h.owned.kept, h.owned.unique⟩, h.backed⟩

end

/-- In every run whose commits are rightful, bundles are written by the accounts that have their
addresses, and accounts keep theirs for themselves. -/
theorem owned_of_rightful (R : Runtime) {sys : System}
    (hrun : Run (apply R) (RightfulEvent R) System.init sys) : Owned R sys.registry :=
  (hrun.invariant inv_init fun _ _ _ h hok happly => inv_apply h hok happly).owned

/-! ## Two rotations -/

instance (R : Runtime) (address onion : String) : Decidable (Names R address onion) :=
  inferInstanceAs (Decidable (_ ∨ _))

instance (R : Runtime) (s : Registry) (username onion : String) :
    Decidable (s.Claims R username onion) :=
  decidable_of_iff (∃ address ∈ (s.users.get? username).join, Names R address onion) (by
    unfold Registry.Claims
    simp [Option.join_eq_some_iff])

instance (R : Runtime) (s : Registry) (username onion : String) :
    Decidable (Settable R s username onion) :=
  inferInstanceAs (Decidable (_ ∧ ∀ e ∈ s.users.entries, _))

instance (R : Runtime) (s : Registry) : (command : Command) → Decidable (Rightful R s command)
  | .publishCommit username own onion _ _ _ =>
    inferInstanceAs (Decidable (own = false → Settable R s username onion))
  | .rotateCommit username own onion _ _ =>
    inferInstanceAs (Decidable (own = false → s.Claims R username onion))
  | .infoCommit username onion => inferInstanceAs (Decidable (Settable R s username onion))
  | .start _ | .publishSelect _ _ _ _ _ | .rotateSelect _ _ _ _ | .fetchSelect _ _
  | .fetchCommit _ _ _ | .refillCommit _ _ _ => .isTrue trivial

instance (R : Runtime) (sys : System) : (e : Event) → Decidable (RightfulEvent R sys e)
  | .run i => inferInstanceAs (Decidable (∀ command ∈ sys.next i, Rightful R sys.registry command))
  | .request _ | .register _ | .configure _ => .isTrue trivial

def sampleOnion : String := "oooooooooooooooo.onion"

def sampleBody : PreKeyBundlePublish where
  onionAddress     := sampleOnion
  identityKey      := "ik"
  signedPrekey     := "spk"
  signedPrekeySig  := "s"
  pqPrekey         := "pq"
  pqPrekeySig      := "t"
  oneTimePrekeys   := []
  oneTimePqPrekeys := []
  onionLength      := by decide
  listLength       := by decide

def sampleRotation : RotateSignedPreKeyRequest where
  onionAddress    := sampleOnion
  signedPrekey    := "spk2"
  signedPrekeySig := "s2"
  pqPrekey        := "pq2"
  pqPrekeySig     := "t2"
  onionLength     := by decide

/-- Alice publishes her bundle, and then somebody rotates it. -/
def rotationBy (username : String) : List Event :=
  [.register "alice", .register "mallory",
   .request (.publish (some "alice") sampleBody aMoment),
   .run 0, .run 0, .run 0,
   .request (.rotate (some username) sampleRotation), .run 1, .run 1, .run 1]

theorem rotated_by_owner : ∃ sys, Run (apply asciiRuntime) (RightfulEvent asciiRuntime) System.init
    sys ∧ sys.registry.writes = [("alice", sampleOnion), ("alice", sampleOnion)] ∧
      Owned asciiRuntime sys.registry := by
  obtain ⟨sys, hrun, hwrites⟩ := @Run.exists_of_runAll _ _ (apply asciiRuntime)
    (RightfulEvent asciiRuntime) System.init _ (rotationBy "alice")
    (fun sys => sys.registry.writes = [("alice", sampleOnion), ("alice", sampleOnion)])
    (by decide +kernel)
  exact ⟨sys, hrun, of_decide_eq_true hwrites, owned_of_rightful asciiRuntime hrun⟩

/-- Mallory has no address. -/
theorem rotated_by_stranger :
    ¬ ∀ sys, Run (apply asciiRuntime) (fun _ _ => True) System.init sys →
      Owned asciiRuntime sys.registry := by
  intro howned
  obtain ⟨sys, hrun, hsys⟩ := @Run.exists_of_runAll _ _ (apply asciiRuntime) (fun _ _ => True)
    System.init _ (rotationBy "mallory")
    (fun sys => ("mallory", sampleOnion) ∈ sys.registry.writes ∧
      sys.registry.users.get? "mallory" = some none) (by decide +kernel)
  obtain ⟨hwritten, hnone⟩ := of_decide_eq_true hsys
  obtain ⟨address, haddress, -⟩ := (howned sys hrun).written _ hwritten
  rw [hnone] at haddress
  cases haddress

end AnonyMus.P2p.Ownership
