import AnonyMus.Lib.JsonText
import AnonyMus.P2p.LocalAccount
import Mathlib.Algebra.BigOperators.Group.Finset.Basic
import Mathlib.Logic.Relation

/-!
# P2P node — guesses at the password, and the keys of the sessions

What a run of requests does to the account of the Flask server: wrong guesses
lock it for longer and longer, and a right one puts a key into memory, which is
there for eight hours at most.

* `Change` — what a request can do to the account, one thing at a time;
* `changes_run` — and it does nothing else;
* `Spaced`, `guesses_locked_out` — how long guesses have to wait for each other;
* `held`, `db_key_custody` — which session gets which key, and when.
-/

namespace AnonyMus.P2p.LocalAccount

open EStateM
open Legacy

variable {L : Library} {A : AccountLibrary} {K : Cipher}

/-! ## What a request can do to the account -/

/-- The entries of `config` that the credentials need. -/
def accountKeys : List String :=
  ["password_hash", "local_username", "db_key_salt", "failed_login_attempts", "lockout_until"]

/-- The key that the server holds at time `t` for a session with this id. -/
def liveAt (t : ℚ) (keyCache : Dict String (String × ℚ)) (dbKeyId : String) : Option String :=
  ((keyCache.get? dbKeyId).filter fun e => t < e.2).map Prod.fst

namespace AccountNode

def config (n : AccountNode) (key : String) : Option String := n.tables.config.get? key

/-- No lock has still to expire. -/
def Unlocked (A : AccountLibrary) (n : AccountNode) : Prop :=
  ∀ text t, truthy (n.config "lockout_until") = some text → A.float text = some t → t ≤ n.clock

/-- The failures with one more. -/
def nextAttempts (A : AccountLibrary) (n : AccountNode) : ℤ :=
  LocalAccount.nextAttempts A (n.config "failed_login_attempts")

end AccountNode

/-- Nothing happens to the account; keys that have expired may go. -/
structure Quiet (n n' : AccountNode) : Prop where
  config : ∀ key ∈ accountKeys, n'.config key = n.config key
  clock  : n.clock ≤ n'.clock
  live   : ∀ t, n'.clock ≤ t → ∀ id, liveAt t n'.keyCache id = liveAt t n.keyCache id
  log    : n'.log = n.log

/-- The credentials are as they were. -/
structure SameCredentials (n n' : AccountNode) : Prop where
  hash : n'.config "password_hash" = n.config "password_hash"
  salt : n'.config "db_key_salt" = n.config "db_key_salt"

/-- What one step can do to the account. -/
inductive Change (A : AccountLibrary) : AccountNode → AccountNode → Prop
  | quiet {n n'} (h : Quiet n n') : Change A n n'
  | registered {n n'} (hnone : n.config "password_hash" = none)
      (hattempts : n'.config "failed_login_attempts" = n.config "failed_login_attempts")
      (hlock : n'.config "lockout_until" = n.config "lockout_until")
      (hclock : n'.clock = n.clock) (hcache : n'.keyCache = n.keyCache) (hlog : n'.log = n.log) :
      Change A n n'
  | failed {n n'} (hunlocked : n.Unlocked A) (hhash : n.config "password_hash" ≠ none)
      (hcredentials : SameCredentials n n') (hclock : n.clock ≤ n'.clock)
      (hcache : n'.keyCache = n.keyCache) (hlog : n'.log = .failed n'.clock :: n.log)
      (hattempts : n'.config "failed_login_attempts" = some (toString (n.nextAttempts A)))
      (hlock : n'.config "lockout_until" =
        if 0 < lockDuration (n.nextAttempts A) then
          some (A.strFloat (n'.clock + lockDuration (n.nextAttempts A)))
        else n.config "lockout_until") : Change A n n'
  | passed {n n'} (hunlocked : n.Unlocked A) (hhash : n.config "password_hash" ≠ none)
      (hcredentials : SameCredentials n n') (hclock : n.clock ≤ n'.clock)
      (hcache : n'.keyCache = n.keyCache) (hlog : n'.log = .passed n'.clock :: n.log)
      (hattempts : n'.config "failed_login_attempts" = some "0")
      (hlock : n'.config "lockout_until" = some "") : Change A n n'
  | loggedIn {n n'} {password passwordHash dbKeyId dbKeyHex : String}
      (hhash : n.config "password_hash" = some passwordHash)
      (hpassword : A.checkpw password passwordHash = true)
      (hkey : deriveDbKey A password n.tables.config = .ok dbKeyHex)
      (htables : n'.tables = n.tables) (hclock : n.clock = n'.clock)
      (hlive : ∀ t, n'.clock ≤ t → ∀ id, liveAt t n'.keyCache id =
        if id = dbKeyId then (if t < n.clock + keyLifetime then some dbKeyHex else none)
        else liveAt t n.keyCache id)
      (hlog : n'.log = .loggedIn n'.clock password dbKeyId dbKeyHex :: n.log) : Change A n n'
  | loggedOut {n n'} (dbKeyId : String) (htables : n'.tables = n.tables)
      (hclock : n'.clock = n.clock) (hcache : n'.keyCache = n.keyCache.erase dbKeyId)
      (hlog : n'.log = .loggedOut dbKeyId :: n.log) : Change A n n'
  | restarted {n n'} (htables : n'.tables = n.tables) (hclock : n'.clock = n.clock)
      (hcache : n'.keyCache = Dict.empty) (hlog : n'.log = .restarted :: n.log) : Change A n n'

/-! ## The requests -/

variable {n n₀ : AccountNode}

theorem Quiet.refl (n : AccountNode) : Quiet n n :=
  ⟨fun _ _ => rfl, le_refl _, fun _ _ _ => rfl, rfl⟩

theorem Quiet.trans {n' n'' : AccountNode} (h : Quiet n n') (h' : Quiet n' n'') : Quiet n n'' where
  config key hkey := (h'.config key hkey).trans (h.config key hkey)
  clock := h.clock.trans h'.clock
  live t ht id := (h'.live t ht id).trans (h.live t (h'.clock.trans ht) id)
  log := h'.log.trans h.log

/-- Tables with the same credentials. -/
theorem Quiet.tables {tables : HandshakeNode}
    (h : ∀ key ∈ accountKeys, tables.config.get? key = n.tables.config.get? key) :
    Quiet n { n with tables } :=
  ⟨h, le_refl _, fun _ _ _ => rfl, rfl⟩

theorem quiet_wait (d : ℚ) : Preserves (Quiet n₀) (wait d) := by
  refine Preserves.modify fun n h => h.trans ⟨fun _ _ => rfl, ?_, fun _ _ _ => rfl, rfl⟩
  have := le_max_right d 0
  show n.clock ≤ n.clock + max d 0
  linarith

/-- A lookup drops a key that has expired. -/
theorem lookUpDbKey_apply (dbKeyId : String) (n : AccountNode) :
    lookUpDbKey dbKeyId n =
      match n.keyCache.get? dbKeyId with
      | none => .ok none n
      | some e =>
        if n.clock < e.2 then .ok (some e.1) n
        else .ok none { n with keyCache := n.keyCache.erase dbKeyId } := by
  rw [lookUpDbKey, apply_bind, apply_get]
  dsimp only
  cases n.keyCache.get? dbKeyId with
  | none => rfl
  | some e =>
    dsimp only
    split <;> rfl

/-- A key that has expired goes. -/
theorem quiet_getDbKeyHex (session : Session) : Preserves (Quiet n₀) (getDbKeyHex session) := by
  unfold getDbKeyHex
  cases truthy session.dbKeyId with
  | none => exact Preserves.pure _
  | some dbKeyId =>
    intro n h
    dsimp only
    rw [lookUpDbKey_apply]
    cases hget : n.keyCache.get? dbKeyId with
    | none => exact h
    | some e =>
      dsimp only
      split
      · exact h
      · rename_i hexpired
        refine h.trans ⟨fun _ _ => rfl, le_refl _, fun t ht id => ?_, rfl⟩
        simp only [Result.state_ok, liveAt, Dict.get?_erase]
        split
        · rename_i hid
          have hlate : ¬ t < e.2 := fun hlt => hexpired (lt_of_le_of_lt ht hlt)
          rw [hid, hget, Option.filter_some, decide_eq_false hlate]
          rfl
        · rfl

/-- What `add_contact` writes to `config` is not of the account. -/
theorem pubkey_notMem_accountKeys (onion : String) : "my_pubkey_for_" ++ onion ∉ accountKeys := by
  intro h
  have hhead : ∀ key ∈ accountKeys, key.toList.head? ≠ some 'm' := by decide
  exact hhead _ h (by rw [String.toList_append]; rfl)

theorem quiet_setConfig {key : String} (hkey : key ∉ accountKeys) (value : String) :
    Preserves (Quiet n₀) (setConfig key value) := by
  refine Preserves.modify fun n h => h.trans (Quiet.tables fun key' hkey' => ?_)
  have hne : key' ≠ key := fun heq => hkey (heq ▸ hkey')
  exact (Dict.get?_insert ..).trans (if_neg hne)

/-- An action that reads the node and changes its contacts only. -/
theorem quiet_contacts (f : AccountNode → HandshakeContacts) : Preserves (Quiet n₀)
    (modify fun n => { n with tables := { n.tables with contacts := f n } } : Accountant Unit) :=
  Preserves.modify fun _ h => h.trans (Quiet.tables fun _ _ => rfl)

theorem config_update (onion : String) (f : HandshakeContact → HandshakeContact)
    (tables : HandshakeNode) : (tables.update L onion f).config = tables.config := by
  unfold HandshakeNode.update
  dsimp only
  split <;> rfl

theorem config_addContact (onion : String) (contact : HandshakeContact) (tables : HandshakeNode) :
    (tables.addContact L onion contact).config = tables.config := by
  unfold HandshakeNode.addContact
  dsimp only
  split <;> rfl

theorem keeps_config_preferRelay (onion : String) (data : Body) :
    Keeps HandshakeNode.config (preferRelay L onion data) := by
  refine Keeps.bind (Keeps.ofExcept _) fun relay => Keeps.ite ?_ (Keeps.pure _)
  exact Keeps.modify fun tables => config_update ..

theorem keeps_config_emit (notice : HandshakeNotice) :
    Keeps HandshakeNode.config (modify (HandshakeNode.emit notice) : Handshaker Unit) :=
  Keeps.modify fun _ => rfl

/-- Peers do not write to `config`. -/
theorem keeps_config_run (e : HandshakeEvent) : Keeps HandshakeNode.config (e.run L) := by
  refine Keeps.bind (Keeps.modify fun _ => rfl) fun _ => ?_
  cases e with
  | p2pHandshake data host displayName =>
    refine Keeps.get fun tables => ?_
    have h : Keeps HandshakeNode.config (do
        let request ← ofExcept (checkHandshake L data host tables)
        modify (HandshakeNode.addContact L request.onion
          (pendingIncoming request.nickname displayName))
        modify (HandshakeNode.updateContactSecret L request.onion none (some request.publicKey))
        modify (HandshakeNode.updateContactStatus L request.onion "pending_incoming")
        preferRelay L request.onion data
        modify (HandshakeNode.emit
          (.incomingContactRequest request.onion request.nickname request.publicKey))
        return "pending") :=
      Keeps.bind (Keeps.ofExcept _) fun request =>
        (Keeps.modify fun _ => config_addContact ..).bind fun _ =>
          (Keeps.modify fun _ => config_update ..).bind fun _ =>
            (Keeps.modify fun _ => config_update ..).bind fun _ =>
              (keeps_config_preferRelay _ _).bind fun _ =>
                (keeps_config_emit _).bind fun _ => Keeps.pure _
    exact h tables
  | p2pAccept data =>
    refine Keeps.bind (Keeps.ofExcept _) fun read => Keeps.get fun tables => ?_
    have h : Keeps HandshakeNode.config (do
        let myPublicKey := (← get).config.get? ("my_pubkey_for_" ++ read.1)
        preferRelay L read.1 data
        modify (HandshakeNode.emit (.handshakeAccepted read.1 read.2 myPublicKey))
        return "accepted") :=
      Keeps.get fun tables => ((keeps_config_preferRelay _ _).bind fun _ =>
        (keeps_config_emit _).bind fun _ => Keeps.pure _) tables
    dsimp only
    split
    · rfl
    · exact h tables

/-- Peers leave the account alone. -/
theorem quiet_handlePeer (e : HandshakeEvent) : Preserves (Quiet n₀) (handlePeer L e) := by
  intro n h
  have hconfig := keeps_config_run (L := L) e n.tables
  refine h.trans ?_
  unfold handlePeer
  cases hrun : e.run L n.tables with
  | ok text tables =>
    rw [hrun] at hconfig
    exact Quiet.tables fun key _ => congrArg (Dict.get? · key) hconfig
  | error failure tables =>
    rw [hrun] at hconfig
    exact Quiet.tables fun key _ => congrArg (Dict.get? · key) hconfig

theorem quiet_contactsOf (session : Session) : Preserves (Quiet n₀) (contacts K session) :=
  Preserves.check fun _ => (quiet_getDbKeyHex session).bind fun _ =>
    Preserves.get fun _ h => Preserves.ofExcept _ _ h

theorem quiet_getContact (onion : String) (dbKey : Option String) :
    Preserves (Quiet n₀) (getContact L K onion dbKey) := by
  refine Preserves.get fun n h => ?_
  cases n.tables.contacts.get? (normalized L onion) with
  | none => exact h
  | some contact => exact Preserves.check (fun _ => Preserves.pure _) n h

theorem quiet_updateContactSecret (onion : String) (secret peerPublicKey dbKey : Option String)
    (nonce : Bytes 12) :
    Preserves (Quiet n₀) (updateContactSecret L K onion secret peerPublicKey dbKey nonce) := by
  refine Preserves.check fun sharedSecret => Preserves.modify fun n h => ?_
  refine h.trans (Quiet.tables fun key _ => ?_)
  rw [HandshakeNode.updateContactSecret, config_update]

theorem quiet_addContact (session : Session) (data : Body) (displayName : String) :
    Preserves (Quiet n₀) (addContact L session data displayName) := by
  refine Preserves.check fun _ => Preserves.check fun _ => Preserves.check fun onion =>
    Preserves.check fun nickname => Preserves.check fun nickname =>
    Preserves.check fun myPublicKey => ?_
  dsimp only
  split
  · exact Preserves.throw _
  · split
    · exact Preserves.throw _
    · rename_i onion _
      refine Preserves.get fun n h => ?_
      refine ((Preserves.modify fun n h => ?_).bind fun _ =>
        quiet_setConfig (pubkey_notMem_accountKeys onion) myPublicKey) n h
      exact h.trans (Quiet.tables fun key _ => by rw [config_addContact])

theorem quiet_acceptContact (session : Session) (data : Body) (nonce : Bytes 12) :
    Preserves (Quiet n₀) (acceptContact L K session data nonce) := by
  refine Preserves.check fun _ => Preserves.check fun _ => Preserves.check fun _ =>
    Preserves.check fun onion => Preserves.check fun _ => (quiet_getDbKeyHex session).bind fun _ =>
    (quiet_getContact _ _).bind fun contact => ?_
  cases contact with
  | none => exact Preserves.throw _
  | some contact => exact quiet_updateContactSecret _ _ _ _ _

theorem quiet_saveSecret (session : Session) (data : Body) (nonce : Bytes 12) :
    Preserves (Quiet n₀) (saveSecret L K session data nonce) :=
  Preserves.check fun _ => Preserves.check fun _ => Preserves.check fun _ =>
    Preserves.check fun _ => Preserves.check fun _ => Preserves.check fun _ =>
    (quiet_getDbKeyHex session).bind fun _ => quiet_updateContactSecret _ _ _ _ _

theorem quiet_deleteContact (session : Session) (data : Body) :
    Preserves (Quiet n₀) (deleteContact L session data) :=
  Preserves.check fun _ => Preserves.check fun _ =>
    Preserves.check fun _ => Preserves.check fun _ => quiet_contacts _

theorem quiet_resetData (session : Session) (data : Body) :
    Preserves (Quiet n₀) (resetData session data) := by
  refine Preserves.check fun _ => ?_
  split
  · exact quiet_contacts _
  · exact Preserves.throw _

/-! ## Credentials -/

@[simp] theorem getConfig_apply (key : String) (n : AccountNode) :
    getConfig key n = .ok (n.config key) n := rfl

@[simp] theorem isInitialized_apply (n : AccountNode) :
    isInitialized n = .ok (n.config "password_hash").isSome n := rfl

@[simp] theorem setConfig_apply (key value : String) (n : AccountNode) :
    setConfig key value n = .ok ⟨⟩
      { n with tables := { n.tables with config := n.tables.config.insert key value } } := rfl

/-- A registration, if there was none. -/
theorem registerLocalUser_change (username password salt dbKeySalt : String) (n : AccountNode) :
    (registerLocalUser L A username password salt dbKeySalt n).state = n ∨
      Change A n (registerLocalUser L A username password salt dbKeySalt n).state := by
  rw [registerLocalUser, apply_bind, isInitialized_apply]
  dsimp only
  cases hhash : n.config "password_hash" with
  | some hash => exact .inl rfl
  | none =>
    rw [if_neg (by simp)]
    split_ifs
    · exact .inl rfl
    · exact .inl rfl
    · exact .inl rfl
    · simp only [apply_bind, getConfig_apply]
      split_ifs
      · exact .inl rfl
      · right
        simp only [apply_bind, setConfig_apply, apply_pure, Result.state_ok]
        refine .registered hhash ?_ ?_ rfl rfl rfl
        · simp [AccountNode.config, Dict.get?_insert]
        · simp [AccountNode.config, Dict.get?_insert]

theorem clock_le_wait (d : ℚ) (n : AccountNode) : n.clock ≤ n.clock + max d 0 := by
  have := le_max_right d 0
  linarith

@[simp] theorem wait_apply (d : ℚ) (n : AccountNode) :
    wait d n = .ok ⟨⟩ { n with clock := n.clock + max d 0 } := rfl

@[simp] theorem note_apply (e : AccountEntry) (n : AccountNode) :
    note e n = .ok ⟨⟩ { n with log := e :: n.log } := rfl

theorem registerFailedAttempt_apply (n : AccountNode) :
    registerFailedAttempt A n = .ok ⟨⟩ { n with
      tables := { n.tables with
        config :=
          let config := n.tables.config.insert "failed_login_attempts" (toString (n.nextAttempts A))
          if 0 < lockDuration (n.nextAttempts A) then
            config.insert "lockout_until" (A.strFloat (n.clock + lockDuration (n.nextAttempts A)))
          else config }
      log := .failed n.clock :: n.log } := by
  rw [registerFailedAttempt, apply_bind, getConfig_apply]
  dsimp only
  rw [show nextAttempts A (n.config "failed_login_attempts") = n.nextAttempts A from rfl]
  split_ifs <;> rfl

/-- The check of a wrong guess has taken its time. -/
theorem registerFailedAttempt_change (hunlocked : n.Unlocked A)
    (hhash : n.config "password_hash" ≠ none) (d : ℚ) :
    Change A n (registerFailedAttempt A { n with clock := n.clock + max d 0 }).state := by
  have hnext : AccountNode.nextAttempts A { n with clock := n.clock + max d 0 } =
    n.nextAttempts A := rfl
  rw [registerFailedAttempt_apply, hnext]
  rw [Result.state_ok]
  refine .failed hunlocked hhash ⟨?_, ?_⟩ (clock_le_wait d n) rfl rfl ?_ ?_
  all_goals
    by_cases hlock : 0 < lockDuration (n.nextAttempts A)
    · simp [AccountNode.config, Dict.get?_insert, hlock]
    · simp [AccountNode.config, Dict.get?_insert, hlock]

/-- A wrong guess counts as a failure. -/
theorem wrongCredentials_change (hunlocked : n.Unlocked A)
    (hhash : n.config "password_hash" ≠ none) (d : ℚ) :
    ∃ n', wrongCredentials A d n = .ok (.error "Wrong credentials.") n' ∧ Change A n n' := by
  have hchange := registerFailedAttempt_change (A := A) hunlocked hhash d
  rw [wrongCredentials, apply_bind, wait_apply]
  dsimp only
  rw [apply_bind]
  rw [registerFailedAttempt_apply] at hchange ⊢
  exact ⟨_, rfl, hchange⟩

/-- A right one resets the count and the lock. -/
theorem rightCredentials_change (hunlocked : n.Unlocked A)
    (hhash : n.config "password_hash" ≠ none) (d : ℚ) :
    ∃ n', rightCredentials d n = .ok (.ok ⟨⟩) n' ∧ Change A n n' ∧ SameCredentials n n' := by
  refine ⟨_, rfl, .passed hunlocked hhash ⟨?_, ?_⟩ (clock_le_wait d n) rfl rfl ?_ ?_, ?_, ?_⟩
  all_goals simp [AccountNode.config, Dict.get?_insert]

/-- What `tryPassword` does to an account that is not locked: nothing, or it counts a failure, or
the password is right. -/
inductive Tried (A : AccountLibrary) (password : String) (n : AccountNode) :
    Result Failure AccountNode (Except String Unit) → Prop
  | refused (failure : Failure) : Tried A password n (.error failure n)
  | unconfigured (e : String) : Tried A password n (.ok (.error e) n)
  | wrong {e n'} (hchange : Change A n n') : Tried A password n (.ok (.error e) n')
  | right {n' passwordHash} (hhash : n.config "password_hash" = some passwordHash)
      (hpassword : A.checkpw password passwordHash = true) (hchange : Change A n n')
      (hsame : SameCredentials n n') : Tried A password n (.ok (.ok ⟨⟩) n')

theorem tried_tryPassword (hunlocked : n.Unlocked A) (username password dummyHash : String)
    (d : ℚ) : Tried A password n (tryPassword L A username password dummyHash d n) := by
  simp only [tryPassword, apply_bind, getConfig_apply]
  cases hhash : n.config "password_hash" with
  | none => exact .unconfigured _
  | some storedHash =>
    cases hname : n.config "local_username" with
    | none => exact .unconfigured _
    | some storedUser =>
      have hne : n.config "password_hash" ≠ none := by
        rw [hhash]
        exact Option.some_ne_none _
      obtain ⟨n', hwrong, hchange⟩ := wrongCredentials_change hunlocked hne d
      dsimp only
      -- a wrong name costs the time of a check, against a dummy hash
      split_ifs with huser
      · rw [apply_bind, apply_ofExcept, checkpw]
        split_ifs
        · dsimp only
          rw [hwrong]
          exact .wrong hchange
        · exact .refused _
      · rw [apply_bind, apply_ofExcept, checkpw]
        split_ifs
        · dsimp only
          split_ifs with hvalid
          · obtain ⟨n', hright, hchange, hsame⟩ := rightCredentials_change hunlocked hne d
            rw [hright]
            exact .right hhash hvalid hchange hsame
          · rw [hwrong]
            exact .wrong hchange
        · exact .refused _

/-- A password that `bcrypt` does not take is never checked. -/
theorem tried_of_not_encodable {password : String} (henc : ¬ A.encodable password)
    (username dummyHash : String) (d : ℚ) :
    Tried A password n (tryPassword L A username password dummyHash d n) := by
  simp only [tryPassword, apply_bind, getConfig_apply]
  cases n.config "password_hash" with
  | none => exact .unconfigured _
  | some storedHash =>
    cases n.config "local_username" with
    | none => exact .unconfigured _
    | some storedUser =>
      dsimp only
      split_ifs
      all_goals
        rw [apply_bind, apply_ofExcept, checkpw, if_neg henc]
        exact .refused _

theorem lockedFor_apply (n : AccountNode) :
    (∃ remaining, lockedFor A n = .ok (some remaining) n) ∨
      lockedFor A n = .ok none n ∧ n.Unlocked A := by
  rw [lockedFor, apply_bind, getConfig_apply]
  dsimp only
  cases htext : truthy (n.config "lockout_until") with
  | none =>
    refine .inr ⟨rfl, fun text t h => ?_⟩
    rw [htext] at h
    cases h
  | some lockoutUntil =>
    dsimp only
    cases htime : A.float lockoutUntil with
    | none =>
      refine .inr ⟨rfl, fun text t h ht => ?_⟩
      rw [htext] at h
      cases h
      rw [htime] at ht
      cases ht
    | some t =>
      dsimp only
      rw [apply_bind, apply_get]
      dsimp only
      by_cases hlocked : 0 < t - n.clock
      · rw [if_pos hlocked]
        exact .inl ⟨_, rfl⟩
      · rw [if_neg hlocked]
        refine .inr ⟨rfl, fun text t' h ht => ?_⟩
        rw [htext] at h
        cases h
        rw [htime] at ht
        cases ht
        linarith

/-- A login tries the password, unless the account is locked. -/
theorem tried_loginLocalUser (username password dummyHash : String) (d : ℚ) (n : AccountNode) :
    Tried A password n (loginLocalUser L A username password dummyHash d n) := by
  rw [loginLocalUser, apply_bind, isInitialized_apply]
  dsimp only
  cases (n.config "password_hash").isSome with
  | false => exact .unconfigured _
  | true =>
    rw [if_neg (by decide), apply_bind]
    rcases lockedFor_apply (A := A) n with ⟨remaining, hlocked⟩ | ⟨hfree, hunlocked⟩
    · rw [hlocked]
      dsimp only
      split_ifs with henc
      · exact .unconfigured _
      · exact tried_of_not_encodable henc ..
    · rw [hfree]
      exact tried_tryPassword hunlocked ..

/-! ## Runs -/

/-- Everything that happens to the account, one change after the other. -/
def Changes (A : AccountLibrary) : AccountNode → AccountNode → Prop :=
  Relation.ReflTransGen (Change A)

theorem Changes.of_quiet {α : Type} {x : Accountant α} (h : ∀ n₀, Preserves (Quiet n₀) x)
    (n : AccountNode) : Changes A n (x n).state :=
  .single (.quiet (h n n (Quiet.refl n)))

theorem changes_register (data : Body) (salt dbKeySalt : String) (n : AccountNode) :
    Changes A n (register L A data salt dbKeySalt n).state := by
  have hkeeps : Preserves (Changes A n) (register L A data salt dbKeySalt) := by
    refine Preserves.check fun _ => Preserves.check fun username =>
      Preserves.check fun password => ?_
    dsimp only
    split_ifs
    · exact Preserves.throw _
    · intro n' h
      rcases registerLocalUser_change (L := L) (A := A) username password salt dbKeySalt n' with
        hsame | hchange
      · rw [hsame]
        exact h
      · exact h.tail hchange
  exact hkeeps n .refl

/-- A new key: those that have expired go, and it takes the place of its id. -/
theorem liveAt_cacheDbKey (dbKeyHex dbKeyId : String) (n : AccountNode) {t : ℚ} (ht : n.clock ≤ t)
    (id : String) :
    liveAt t ((n.keyCache.filter fun e => ¬ e.2.2 < n.clock).insert dbKeyId
        (dbKeyHex, n.clock + keyLifetime)) id =
      if id = dbKeyId then (if t < n.clock + keyLifetime then some dbKeyHex else none)
      else liveAt t n.keyCache id := by
  simp only [liveAt, Dict.get?_insert]
  by_cases hid : id = dbKeyId
  · rw [if_pos hid, if_pos hid, Option.filter_some]
    by_cases hlt : t < n.clock + keyLifetime
    · simp [hlt]
    · simp [hlt]
  · rw [if_neg hid, if_neg hid, Dict.get?_filter_eq, Option.filter_filter]
    congr 2
    funext e
    -- a key that is held at `t` had not expired before
    have hkept : t < e.2 → ¬ e.2 < n.clock := fun hlt => not_lt.mpr (ht.trans hlt.le)
    by_cases hlt : t < e.2
    · simp [hlt, hkept hlt]
    · simp [hlt]

/-- A guess, and a key if it was right. -/
theorem changes_login (session : Session) (data : Body) (chance : LoginChance) (n : AccountNode) :
    Changes A n (login L A session data chance n).state := by
  have hkeeps : Preserves (Changes A n) (login L A session data chance) := by
    refine Preserves.check fun _ => Preserves.check fun username =>
      Preserves.check fun password => ?_
    intro n₁ h₁
    rw [apply_bind]
    have htried := tried_loginLocalUser (L := L) (A := A) username password chance.dummyHash
      chance.checking n₁
    cases hrun : loginLocalUser L A username password chance.dummyHash chance.checking n₁ with
    | error failure n₂ =>
      rw [hrun] at htried
      cases htried
      exact h₁
    | ok r n₂ =>
      rw [hrun] at htried
      cases htried with
      | unconfigured e => exact h₁
      | wrong hchange => exact h₁.tail hchange
      | right hhash hpassword hchange hsame =>
        have h₂ : Changes A n n₂ := h₁.tail hchange
        dsimp only
        rw [apply_bind, apply_get]
        dsimp only
        rw [apply_bind, apply_ofExcept]
        cases hkey : deriveDbKey A password n₂.tables.config with
        | error failure => exact h₂
        | ok dbKeyHex =>
          have hhash₂ := hsame.hash.trans hhash
          have hwait : Quiet n₂ { n₂ with clock := n₂.clock + max chance.derivation 0 } :=
            ⟨fun _ _ => rfl, clock_le_wait .., fun _ _ _ => rfl, rfl⟩
          refine (h₂.tail (.quiet hwait)).tail ?_
          exact .loggedIn hhash₂ hpassword hkey rfl rfl
            (fun t ht id => liveAt_cacheDbKey dbKeyHex chance.dbKeyId
              { n₂ with clock := n₂.clock + max chance.derivation 0 } ht id) rfl
  exact hkeeps n .refl

theorem changes_logout (session : Session) (n : AccountNode) :
    Changes A n (logout session n).state := by
  unfold logout
  cases truthy session.dbKeyId with
  | none => exact .refl
  | some dbKeyId => exact .single (.loggedOut dbKeyId rfl rfl rfl rfl)

/-- A request does nothing to the account but what `Change` lists. -/
theorem changes_run (e : AccountEvent) (n : AccountNode) : Changes A n (e.run L A K n).state := by
  have hdone : ∀ {α : Type} {x : Accountant α} {f : α → AccountAnswer},
      Changes A n (x n).state → Changes A n ((do return f (← x) : Accountant _) n).state := by
    intro α x f h
    rw [apply_bind]
    cases hx : x n with
    | ok a n' =>
      rw [hx] at h
      exact h
    | error failure n' =>
      rw [hx] at h
      exact h
  cases e with
  | tick d => exact .of_quiet (fun _ => (quiet_wait d).bind fun _ => Preserves.pure _) n
  | restart => exact .single (.restarted rfl rfl rfl rfl)
  | register data salt dbKeySalt => exact hdone (changes_register data salt dbKeySalt n)
  | login session data chance => exact hdone (changes_login session data chance n)
  | logout session => exact hdone (changes_logout session n)
  | contacts session => exact hdone (.of_quiet (fun _ => quiet_contactsOf session) n)
  | addContact session data displayName =>
    exact hdone (.of_quiet (fun _ => quiet_addContact session data displayName) n)
  | acceptContact session data nonce =>
    exact hdone (.of_quiet (fun _ => quiet_acceptContact session data nonce) n)
  | saveSecret session data nonce =>
    exact hdone (.of_quiet (fun _ => quiet_saveSecret session data nonce) n)
  | deleteContact session data =>
    exact hdone (.of_quiet (fun _ => quiet_deleteContact session data) n)
  | resetData session data => exact hdone (.of_quiet (fun _ => quiet_resetData session data) n)
  | peer e => exact hdone (.of_quiet (fun _ => quiet_handlePeer e) n)

/-- What every change keeps, every run keeps. -/
theorem runEvents_induction {P : AccountNode → Prop} (hnew : P AccountNode.new)
    (hstep : ∀ n n', Change A n n' → P n → P n') (σ : List AccountEvent) :
    P (runEvents L A K σ AccountNode.new) := by
  have hrun : ∀ n, P n → P (runEvents L A K σ n) := by
    induction σ with
    | nil => exact fun n h => h
    | cons e σ ih =>
      intro n h
      refine ih _ ?_
      show P (e.run L A K n).state
      have hchanges := changes_run (L := L) (A := A) (K := K) e n
      generalize (e.run L A K n).state = n' at hchanges ⊢
      clear ih
      induction hchanges with
      | refl => exact h
      | tail _ hchange ih' => exact hstep _ _ hchange ih'
  exact hrun _ hnew

/-! ## How long guesses wait -/

/-- When a guess was evaluated. -/
def AccountEntry.guess? : AccountEntry → Option ℚ
  | failed t => some t
  | passed t => some t
  | _ => none

/-- The wrong guesses since the last right one, newest first. -/
def failuresInARow : List AccountEntry → List ℚ
  | [] => []
  | .failed t :: rest => t :: failuresInARow rest
  | .passed _ :: _ => []
  | _ :: rest => failuresInARow rest

/-- Every guess came when the lock of the one before was over. -/
def Spaced : List AccountEntry → Prop
  | [] => True
  | e :: rest =>
    (∀ t ∈ e.guess?, ∀ t₀ ∈ (failuresInARow rest).head?,
      t₀ + lockDuration (failuresInARow rest).length ≤ t) ∧ Spaced rest

/-- The locks after the first `n - 1` of `n` failures in a row, together. -/
def lockTime (n : ℕ) : ℚ := ∑ k ∈ Finset.range n, lockDuration k

/-- The credentials tell how the wrong guesses have gone. -/
structure Counting (A : AccountLibrary) (n : AccountNode) : Prop where
  attempts : n.config "failed_login_attempts" =
      some (toString ((failuresInARow n.log).length : ℤ)) ∨
    n.config "failed_login_attempts" = none ∧ failuresInARow n.log = []
  locked   : ∀ t ∈ (failuresInARow n.log).head?,
    0 < lockDuration (failuresInARow n.log).length → n.config "lockout_until" =
      some (A.strFloat (t + lockDuration (failuresInARow n.log).length))
  free     : lockDuration (failuresInARow n.log).length = 0 →
    truthy (n.config "lockout_until") = none
  past     : ∀ t ∈ (failuresInARow n.log).head?, t ≤ n.clock
  spaced   : Spaced n.log

theorem lockDuration_nonneg (k : ℤ) : 0 ≤ lockDuration k := by
  unfold lockDuration
  split_ifs <;> norm_num

theorem lockDuration_mono {k l : ℤ} (h : k ≤ l) : lockDuration k ≤ lockDuration l := by
  unfold lockDuration
  split_ifs <;> first | omega | norm_num

/-- The stored count is the one of the log. -/
theorem Counting.nextAttempts (h : Counting A n) (hdoc : A.Documented) :
    n.nextAttempts A = (failuresInARow n.log).length + 1 := by
  rw [AccountNode.nextAttempts, LocalAccount.nextAttempts]
  rcases h.attempts with hsome | ⟨hnone, hnil⟩
  · rw [hsome, Option.getD_some, hdoc.int_str]
  · rw [hnone, hnil, Option.getD_none, show "0" = toString (0 : ℤ) from rfl, hdoc.int_str]
    rfl

/-- A guess at an unlocked account waits for the last lock. -/
theorem Counting.waits (h : Counting A n) (hdoc : A.Documented) (hunlocked : n.Unlocked A) :
    ∀ t ∈ (failuresInARow n.log).head?,
      t + lockDuration (failuresInARow n.log).length ≤ n.clock := by
  intro t ht
  rcases (lockDuration_nonneg (failuresInARow n.log).length).eq_or_lt with hzero | hpos
  · have := h.past t ht
    linarith
  · refine hunlocked _ _ ?_ (hdoc.float_str _)
    rw [h.locked t ht hpos, truthy_of_ne (hdoc.str_ne _)]

/-- Nothing that counts has changed. -/
theorem Counting.frame {n' : AccountNode} (h : Counting A n)
    (hattempts : n'.config "failed_login_attempts" = n.config "failed_login_attempts")
    (hlock : n'.config "lockout_until" = n.config "lockout_until") (hclock : n.clock ≤ n'.clock)
    (hrow : failuresInARow n'.log = failuresInARow n.log) (hspaced : Spaced n'.log) :
    Counting A n' := by
  constructor
  case attempts =>
    rw [hattempts, hrow]
    exact h.attempts
  case locked =>
    rw [hlock, hrow]
    exact h.locked
  case free =>
    rw [hlock, hrow]
    exact h.free
  case past =>
    rw [hrow]
    exact fun t ht => (h.past t ht).trans hclock
  case spaced => exact hspaced

/-- A step that guesses nothing and leaves the tables as they are. -/
theorem Counting.unguessed {n' : AccountNode} (h : Counting A n) (htables : n'.tables = n.tables)
    (hclock : n.clock ≤ n'.clock) {e : AccountEntry} (hlog : n'.log = e :: n.log)
    (he : e.guess? = none) (hrow : failuresInARow n'.log = failuresInARow n.log) :
    Counting A n' := by
  refine h.frame (by rw [AccountNode.config, htables]; rfl)
    (by rw [AccountNode.config, htables]; rfl) hclock hrow ?_
  rw [hlog]
  exact ⟨fun t ht => (by rw [he] at ht; cases ht), h.spaced⟩

/-- Every change keeps the count. -/
theorem Counting.step {n' : AccountNode} (h : Counting A n) (hdoc : A.Documented)
    (hchange : Change A n n') : Counting A n' := by
  cases hchange with
  | quiet hquiet =>
    have hrow : failuresInARow n'.log = failuresInARow n.log := by rw [hquiet.log]
    exact h.frame (hquiet.config _ (by decide)) (hquiet.config _ (by decide)) hquiet.clock hrow
      (by rw [hquiet.log]; exact h.spaced)
  | registered hnone hattempts hlock hclock hcache hlog =>
    exact h.frame hattempts hlock hclock.ge (by rw [hlog]) (by rw [hlog]; exact h.spaced)
  | failed hunlocked hhash hcredentials hclock hcache hlog hattempts hlock =>
    have hnext := h.nextAttempts hdoc
    have hrow : failuresInARow n'.log = n'.clock :: failuresInARow n.log := by rw [hlog]; rfl
    have hlength : ((failuresInARow n'.log).length : ℤ) = n.nextAttempts A := by
      rw [hrow, hnext, List.length_cons]
      push_cast
      rfl
    constructor
    case attempts =>
      rw [hlength]
      exact .inl hattempts
    case locked =>
      intro t ht hpos
      rw [hrow, List.head?_cons] at ht
      cases ht
      rw [hlength] at hpos ⊢
      rw [hlock, if_pos hpos]
    case free =>
      rw [hlength]
      intro hzero
      rw [hlock, if_neg (by rw [hzero]; exact lt_irrefl _)]
      refine h.free (le_antisymm ?_ (lockDuration_nonneg _))
      -- without a lock now there was none before
      rw [← hzero, hnext]
      exact lockDuration_mono (by omega)
    case past =>
      intro t ht
      rw [hrow, List.head?_cons] at ht
      cases ht
      exact le_refl _
    case spaced =>
      rw [hlog]
      refine ⟨fun t ht t₀ ht₀ => ?_, h.spaced⟩
      cases ht
      exact (h.waits hdoc hunlocked t₀ ht₀).trans hclock
  | passed hunlocked hhash hcredentials hclock hcache hlog hattempts hlock =>
    have hrow : failuresInARow n'.log = [] := by rw [hlog]; rfl
    constructor
    case attempts =>
      rw [hrow]
      exact .inl hattempts
    case locked =>
      rw [hrow]
      rintro t ⟨⟩
    case free =>
      rw [hlock]
      exact fun _ => rfl
    case past =>
      rw [hrow]
      rintro t ⟨⟩
    case spaced =>
      rw [hlog]
      refine ⟨fun t ht t₀ ht₀ => ?_, h.spaced⟩
      cases ht
      exact (h.waits hdoc hunlocked t₀ ht₀).trans hclock
  | loggedIn hhash hpassword hkey htables hclock hlive hlog =>
    exact h.unguessed htables hclock.le hlog rfl (by rw [hlog]; rfl)
  | loggedOut id htables hclock hcache hlog =>
    exact h.unguessed htables hclock.ge hlog rfl (by rw [hlog]; rfl)
  | restarted htables hclock hcache hlog =>
    exact h.unguessed htables hclock.ge hlog rfl (by rw [hlog]; rfl)

theorem counting_new : Counting A AccountNode.new where
  attempts := .inr ⟨rfl, rfl⟩
  locked _ h := by cases h
  free _ := rfl
  past _ h := by cases h
  spaced := trivial

theorem lockTime_succ (n : ℕ) : lockTime (n + 1) = lockTime n + lockDuration n :=
  Finset.sum_range_succ _ n

/-- The newest failure in a row, in the log. -/
theorem exists_failed {log : List AccountEntry} {t : ℚ} {ts : List ℚ}
    (h : failuresInARow log = t :: ts) :
    ∃ later rest, log = later ++ .failed t :: rest ∧ failuresInARow rest = ts := by
  induction log with
  | nil => cases h
  | cons e log ih =>
    cases e with
    | failed t' =>
      cases h
      exact ⟨[], log, rfl, rfl⟩
    | passed t' => cases h
    | loggedIn t' password dbKeyId dbKeyHex =>
      obtain ⟨later, rest, rfl, hrest⟩ := ih h
      exact ⟨_ :: later, rest, rfl, hrest⟩
    | loggedOut dbKeyId =>
      obtain ⟨later, rest, rfl, hrest⟩ := ih h
      exact ⟨_ :: later, rest, rfl, hrest⟩
    | restarted =>
      obtain ⟨later, rest, rfl, hrest⟩ := ih h
      exact ⟨_ :: later, rest, rfl, hrest⟩

theorem Spaced.of_append {later log : List AccountEntry} (h : Spaced (later ++ log)) :
    Spaced log := by
  induction later with
  | nil => exact h
  | cons e later ih => exact ih h.2

/-- The locks add up. -/
theorem Spaced.waits {e : AccountEntry} {rest : List AccountEntry} (h : Spaced (e :: rest)) {t : ℚ}
    (he : e.guess? = some t) {i : ℕ} {t₀ : ℚ} (hi : (failuresInARow rest)[i]? = some t₀) :
    t₀ + (lockTime ((failuresInARow rest).length + 1) -
      lockTime ((failuresInARow rest).length - i)) ≤ t := by
  induction i generalizing e rest t with
  | zero =>
    have hlast := h.1 t he t₀ (by rw [List.head?_eq_getElem?]; exact hi)
    rw [Nat.sub_zero, lockTime_succ]
    linarith
  | succ i ih =>
    cases hrow : failuresInARow rest with
    | nil =>
      rw [hrow] at hi
      cases hi
    | cons t₁ ts =>
      rw [hrow, List.getElem?_cons_succ] at hi
      have hlast := h.1 t he t₁ (by rw [hrow]; rfl)
      -- the failure before this guess has waited itself
      obtain ⟨later, rest', rfl, rfl⟩ := exists_failed hrow
      have hbefore := ih (Spaced.of_append h.2) rfl hi
      rw [hrow, List.length_cons] at hlast
      rw [List.length_cons, Nat.add_sub_add_right, lockTime_succ (_ + 1)]
      linarith

/-- **Lockout.** In every run of requests: a guess at the password that is evaluated, right or
wrong, comes after each wrong one before it since the last right one by at least the locks of
that one and of all between them, together. -/
theorem guesses_locked_out (hdoc : A.Documented) (σ : List AccountEvent)
    {later rest : List AccountEntry} {e : AccountEntry}
    (hlog : (runEvents L A K σ AccountNode.new).log = later ++ e :: rest) {t : ℚ}
    (he : e.guess? = some t) {i : ℕ} {t₀ : ℚ} (hi : (failuresInARow rest)[i]? = some t₀) :
    t₀ + (lockTime ((failuresInARow rest).length + 1) -
      lockTime ((failuresInARow rest).length - i)) ≤ t := by
  have hcounting : Counting A (runEvents L A K σ AccountNode.new) :=
    runEvents_induction counting_new (fun _ _ hchange h => h.step hdoc hchange) σ
  have hspaced := hcounting.spaced
  rw [hlog] at hspaced
  exact hspaced.of_append.waits he hi

/-- A number from its digits. -/
def sampleInt : List Char → ℤ
  | '-' :: digits => -(Nat.ofDigitChars 10 digits 0 : ℕ)
  | digits => (Nat.ofDigitChars 10 digits 0 : ℕ)

theorem sampleInt_toString (n : ℤ) : sampleInt (toString n).toList = n := by
  have hdigits : ∀ m : ℕ, Nat.ofDigitChars 10 m.repr.toList 0 = m := fun m => by
    rw [Nat.toList_repr, Nat.ofDigitChars_ten_toDigits]
  cases n with
  | ofNat m =>
    show sampleInt m.repr.toList = _
    unfold sampleInt
    split
    · rename_i digits heq
      have hminus : '-' ∈ m.repr.toList := by
        rw [heq]
        exact List.mem_cons_self
      rw [Nat.toList_repr] at hminus
      exact absurd (Nat.isDigit_of_mem_toDigits (by decide) (by decide) hminus) (by decide)
    · rw [hdigits]
      rfl
  | negSucc m =>
    show sampleInt ("-" ++ (m + 1).repr).toList = _
    rw [String.toList_append]
    show -(Nat.ofDigitChars 10 (m + 1).repr.toList 0 : ℤ) = _
    rw [hdigits]
    rfl

/-- A time is written as a fraction. -/
def sampleFloat (text : List Char) : ℚ :=
  sampleInt (text.takeWhile (· ≠ '/')) / sampleInt ((text.dropWhile (· ≠ '/')).drop 1)

/-- A hash is the password itself, and a ciphertext the plaintext. -/
def sampleAccounts : AccountLibrary where
  encodable _ := true
  hashpw password _ := password
  checkpw password passwordHash := password = passwordHash
  strFloat t := toString t.num ++ "/" ++ toString (t.den : ℤ)
  float text := some (sampleFloat text.toList)
  int text := some (sampleInt text.toList)
  pbkdf2 _ _ _ := Bytes.replicate 32 0
  gcmEncrypt _ _ plaintext := plaintext
  gcmDecrypt _ _ ciphertext := some ciphertext

theorem sampleAccounts_documented : sampleAccounts.Documented where
  float_str t := by
    have hslash : ∀ c ∈ (toString t.num).toList, c ≠ '/' := by
      rintro c hc rfl
      exact absurd (Json.isNumeral_of_mem_toString _ _ hc) (by decide)
    have htext : (sampleAccounts.strFloat t).toList =
        (toString t.num).toList ++ '/' :: (toString (t.den : ℤ)).toList := by
      simp [sampleAccounts]
    refine congrArg some ?_
    rw [sampleFloat, htext, List.takeWhile_append_of_pos (by simpa using hslash),
      List.dropWhile_append_of_pos (by simpa using hslash)]
    simp only [ne_eq, not_true_eq_false, decide_false, Bool.false_eq_true, not_false_eq_true,
      List.takeWhile_cons_of_neg, List.append_nil, List.dropWhile_cons_of_neg, List.drop_succ_cons,
      List.drop_zero, sampleInt_toString, Int.cast_natCast, Rat.num_div_den]
  str_ne t h := by
    have hslash : '/' ∈ (sampleAccounts.strFloat t).toList := by simp [sampleAccounts]
    rw [h] at hslash
    cases hslash
  int_str n := congrArg some (sampleInt_toString n)
  opens _ _ _ := rfl

def sampleLibrary : Library := ⟨id, fun _ => .ok 0, fun _ _ => false⟩

/-- A login with this password, whose check takes a second. -/
def sampleGuess (password : String) : AccountEvent :=
  .login Session.clear [("username", .str "alice"), ("password", .str password)]
    ⟨"dummy", 1, 0, "id"⟩

/-- Five wrong guesses, one while the account is locked, and the right one a minute later. -/
def sampleGuesses : List AccountEvent :=
  [.register [("username", .str "alice"), ("password", .str "passphrase")] "" "00",
    sampleGuess "a", sampleGuess "b", sampleGuess "c", sampleGuess "d", sampleGuess "e",
    sampleGuess "passphrase", .tick 60, sampleGuess "passphrase"]

theorem sampleGuesses_log :
    (runEvents sampleLibrary sampleAccounts Cipher.clear sampleGuesses AccountNode.new).log =
      [.loggedIn 66 "passphrase" "id" (String.ofList (toHex (List.replicate 32 0)))] ++
        .passed 66 :: [.failed 5, .failed 4, .failed 3, .failed 2, .failed 1] := by
  decide +kernel

theorem guesses_locked_out_sample : (1 : ℚ) + (lockTime (5 + 1) - lockTime (5 - 4)) ≤ 66 :=
  guesses_locked_out (t := 66) (i := 4) sampleAccounts_documented sampleGuesses
    sampleGuesses_log rfl rfl

/-! ## Which session gets which key -/

/-- The key for an id at time `t`, as the log tells it: that of the last login with this id, for
eight hours, unless the session has been logged out or the server has been restarted since. -/
def held (t : ℚ) (id : String) : List AccountEntry → Option String
  | [] => none
  | .loggedIn t₀ _ dbKeyId dbKeyHex :: rest =>
    if id = dbKeyId then (if t < t₀ + keyLifetime then some dbKeyHex else none) else held t id rest
  | .loggedOut dbKeyId :: rest => if id = dbKeyId then none else held t id rest
  | .restarted :: _ => none
  | .failed _ :: rest => held t id rest
  | .passed _ :: rest => held t id rest

/-- The password is the one of the account, and the key is derived from it. -/
def Opens (A : AccountLibrary) (n : AccountNode) (password dbKeyHex : String) : Prop :=
  ∃ passwordHash, n.config "password_hash" = some passwordHash ∧
    A.checkpw password passwordHash = true ∧
    deriveDbKey A password n.tables.config = .ok dbKeyHex

/-- What is in memory is what the log tells, and every key in it is from the password. -/
structure Custody (A : AccountLibrary) (n : AccountNode) : Prop where
  live  : ∀ t, n.clock ≤ t → ∀ id, liveAt t n.keyCache id = held t id n.log
  opens : ∀ t password dbKeyId dbKeyHex, .loggedIn t password dbKeyId dbKeyHex ∈ n.log →
    Opens A n password dbKeyHex

theorem deriveDbKey_congr {config config' : Dict String String} (password : String)
    (h : config'.get? "db_key_salt" = config.get? "db_key_salt") :
    deriveDbKey A password config' = deriveDbKey A password config := by
  unfold deriveDbKey
  rw [h]

/-- A key opens as long as the credentials are the same. -/
theorem Opens.congr {n' : AccountNode} {password dbKeyHex : String}
    (h : Opens A n password dbKeyHex) (hsame : SameCredentials n n') :
    Opens A n' password dbKeyHex := by
  obtain ⟨passwordHash, hhash, hpassword, hkey⟩ := h
  exact ⟨passwordHash, hsame.hash.trans hhash, hpassword,
    (deriveDbKey_congr password hsame.salt).trans hkey⟩

theorem SameCredentials.of_tables {n' : AccountNode} (h : n'.tables = n.tables) :
    SameCredentials n n' := by
  constructor <;> rw [AccountNode.config, h] <;> rfl

theorem liveAt_erase (t : ℚ) (keyCache : Dict String (String × ℚ)) (dbKeyId id : String) :
    liveAt t (keyCache.erase dbKeyId) id =
      if id = dbKeyId then none else liveAt t keyCache id := by
  rw [liveAt, Dict.get?_erase]
  split <;> rfl

/-- Whoever has logged in before the last entry has done so with the password there is. -/
theorem Custody.opens_of_cons {n' : AccountNode} (h : Custody A n) (hsame : SameCredentials n n')
    {e : AccountEntry} (hlog : n'.log = e :: n.log) {t : ℚ} {password dbKeyId dbKeyHex : String}
    (hmem : .loggedIn t password dbKeyId dbKeyHex ∈ n'.log)
    (hne : AccountEntry.loggedIn t password dbKeyId dbKeyHex ≠ e) :
    Opens A n' password dbKeyHex := by
  rw [hlog, List.mem_cons, or_iff_right hne] at hmem
  exact (h.opens _ _ _ _ hmem).congr hsame

/-- Every change keeps memory and log together. -/
theorem Custody.step {n' : AccountNode} (h : Custody A n) (hchange : Change A n n') :
    Custody A n' := by
  cases hchange with
  | quiet hquiet =>
    have hsame : SameCredentials n n' :=
      ⟨hquiet.config _ (by decide), hquiet.config _ (by decide)⟩
    refine ⟨fun t ht id => ?_, fun t password dbKeyId dbKeyHex hmem => ?_⟩
    · rw [hquiet.live t ht id, hquiet.log]
      exact h.live t (hquiet.clock.trans ht) id
    · rw [hquiet.log] at hmem
      exact (h.opens _ _ _ _ hmem).congr hsame
  | registered hnone hattempts hlock hclock hcache hlog =>
    refine ⟨fun t ht id => ?_, fun t password dbKeyId dbKeyHex hmem => ?_⟩
    · rw [hcache, hlog]
      exact h.live t (hclock.ge.trans ht) id
    · -- without an account nobody has logged in
      rw [hlog] at hmem
      obtain ⟨passwordHash, hhash, -, -⟩ := h.opens _ _ _ _ hmem
      rw [hnone] at hhash
      cases hhash
  | failed hunlocked hhash hcredentials hclock hcache hlog hattempts hlock =>
    refine ⟨fun t ht id => ?_, fun t password dbKeyId dbKeyHex hmem => ?_⟩
    · rw [hcache, hlog]
      exact h.live t (hclock.trans ht) id
    · -- a guess is no login
      exact h.opens_of_cons hcredentials hlog hmem (by rintro ⟨⟩)
  | passed hunlocked hhash hcredentials hclock hcache hlog hattempts hlock =>
    refine ⟨fun t ht id => ?_, fun t password dbKeyId dbKeyHex hmem => ?_⟩
    · rw [hcache, hlog]
      exact h.live t (hclock.trans ht) id
    · exact h.opens_of_cons hcredentials hlog hmem (by rintro ⟨⟩)
  | loggedIn hhash hpassword hkey htables hclock hlive hlog =>
    have hsame := SameCredentials.of_tables htables
    refine ⟨fun t ht id => ?_, fun t password' dbKeyId' dbKeyHex' hmem => ?_⟩
    · rw [hlive t ht id, hlog, held, hclock]
      split
      · rfl
      · exact h.live t (hclock.le.trans ht) id
    · rw [hlog, List.mem_cons] at hmem
      rcases hmem with heq | hmem
      · -- the new key opens by the check that it came from
        cases heq
        exact Opens.congr ⟨_, hhash, hpassword, hkey⟩ hsame
      · exact (h.opens _ _ _ _ hmem).congr hsame
  | loggedOut dbKeyId htables hclock hcache hlog =>
    refine ⟨fun t ht id => ?_, fun t password' dbKeyId' dbKeyHex' hmem => ?_⟩
    · rw [hcache, hlog, liveAt_erase, held]
      split
      · rfl
      · exact h.live t (hclock.ge.trans ht) id
    · exact h.opens_of_cons (.of_tables htables) hlog hmem (by rintro ⟨⟩)
  | restarted htables hclock hcache hlog =>
    refine ⟨fun t ht id => ?_, fun t password' dbKeyId' dbKeyHex' hmem => ?_⟩
    · rw [hcache, hlog]
      rfl
    · exact h.opens_of_cons (.of_tables htables) hlog hmem (by rintro ⟨⟩)

theorem custody_new : Custody A AccountNode.new :=
  ⟨fun _ _ _ => rfl, fun _ _ _ _ h => by cases h⟩

/-- What a session gets is what is in memory for its id. -/
theorem getDbKeyHex_eq_liveAt (session : Session) (n : AccountNode) :
    ∃ n', getDbKeyHex session n =
      .ok ((truthy session.dbKeyId).bind (liveAt n.clock n.keyCache)) n' := by
  unfold getDbKeyHex
  cases truthy session.dbKeyId with
  | none => exact ⟨n, rfl⟩
  | some dbKeyId =>
    dsimp only
    rw [lookUpDbKey_apply, Option.bind_some, liveAt]
    cases n.keyCache.get? dbKeyId with
    | none => exact ⟨n, rfl⟩
    | some e =>
      dsimp only
      rw [Option.filter_some]
      by_cases hlt : n.clock < e.2
      · exact ⟨n, by simp [hlt]⟩
      · exact ⟨{ n with keyCache := n.keyCache.erase dbKeyId }, by simp [hlt]⟩

/-- **Custody.** After every run of requests a session gets the key of the login that made it, in
the eight hours after it, unless it has been logged out or the server has been restarted; and that
key was derived from a password that the account accepts. -/
theorem db_key_custody (σ : List AccountEvent) (session : Session) :
    let n := runEvents L A K σ AccountNode.new
    (∃ n', getDbKeyHex session n =
      .ok ((truthy session.dbKeyId).bind fun id => held n.clock id n.log) n') ∧
    ∀ t password dbKeyId dbKeyHex, .loggedIn t password dbKeyId dbKeyHex ∈ n.log →
      Opens A n password dbKeyHex := by
  intro n
  have hcustody : Custody A n :=
    runEvents_induction custody_new (fun _ _ hchange h => h.step hchange) σ
  refine ⟨?_, hcustody.opens⟩
  obtain ⟨n', hget⟩ := getDbKeyHex_eq_liveAt session n
  refine ⟨n', hget.trans ?_⟩
  congr 2
  funext id
  exact hcustody.live n.clock (le_refl _) id

end AnonyMus.P2p.LocalAccount
