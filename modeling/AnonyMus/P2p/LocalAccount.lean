import AnonyMus.Lib.Utf8
import AnonyMus.P2p.LegacyHandshake
import Mathlib.Algebra.Order.Floor.Ring
import Mathlib.Data.Rat.Floor

/-!
# P2P node — the local account of the Flask server

The credentials of `transports/p2p/database.py`, and the endpoints of
`transports/p2p/server.py` that need them: the password opens a session, and
from it the key is derived under which the shared secrets of the contacts lie in
the database. Requests are handled one after another.

* `Session`, `AccountNode` — the cookie of a browser, and the node;
* `loginLocalUser` — the check of the password, with its lockout;
* `cacheDbKey`, `getDbKeyHex` — the keys that the server holds for its sessions;
* `Cipher` — what `core/crypto.py` does to a secret;
* `AccountEvent.run` — the endpoints, the requests of peers, time and restarts.
-/

namespace AnonyMus.P2p.LocalAccount

open EStateM
open Relay (strip)
open Legacy

/-! ## The node -/

/-- The session cookie. -/
structure Session where
  username        : Option String
  dbKeyId         : Option String
  activeProfileId : Option String
deriving DecidableEq

/-- `session.clear()`. -/
def Session.clear : Session := ⟨none, none, none⟩

/-- What has happened to the account. -/
inductive AccountEntry
  /-- A guess was evaluated, and it was wrong. -/
  | failed (t : ℚ)
  /-- A guess was evaluated, and it was right. -/
  | passed (t : ℚ)
  /-- A login, with the id and the text of the key that was derived. -/
  | loggedIn (t : ℚ) (password dbKeyId dbKeyHex : String)
  | loggedOut (dbKeyId : String)
  | restarted
deriving DecidableEq

/-- The node: its tables, the keys in memory, and a log, newest first. -/
structure AccountNode where
  tables   : HandshakeNode
  /-- `_DB_KEY_CACHE`. -/
  keyCache : Dict String (String × ℚ)
  /-- `time.time()`; until 2038 whole seconds are added to it without rounding. -/
  clock    : ℚ
  log      : List AccountEntry

abbrev Accountant := EStateM Failure AccountNode

/-- What the node takes from Python, `bcrypt` and `cryptography`. -/
structure AccountLibrary where
  /-- `bcrypt` takes the password: it is not too long, and has no NUL. -/
  encodable : String → Bool
  hashpw : (password salt : String) → String
  checkpw : (password passwordHash : String) → Bool
  /-- `str` and `float` of a time. -/
  strFloat : ℚ → String
  float : String → Option ℚ
  /-- `int` of a text. -/
  int : String → Option ℤ
  pbkdf2 : (password : String) → (salt : List UInt8) → (iterations : ℕ) → Bytes 32
  gcmEncrypt : (key nonce plaintext : List UInt8) → List UInt8
  gcmDecrypt : (key nonce ciphertext : List UInt8) → Option (List UInt8)

/-- What the documentation of Python promises. -/
structure AccountLibrary.Documented (A : AccountLibrary) : Prop where
  float_str : ∀ t, A.float (A.strFloat t) = some t
  str_ne    : ∀ t, A.strFloat t ≠ ""
  int_str   : ∀ n : ℤ, A.int (toString n) = some n
  opens     : ∀ key nonce plaintext,
    A.gcmDecrypt key nonce (A.gcmEncrypt key nonce plaintext) = some plaintext

section

variable (L : Library) (A : AccountLibrary)

/-! ## Credentials -/

def getConfig (key : String) : Accountant (Option String) := do
  return (← get).tables.config.get? key

def setConfig (key value : String) : Accountant Unit :=
  modify fun n => { n with tables := { n.tables with config := n.tables.config.insert key value } }

/-- Time passes. -/
def wait (d : ℚ) : Accountant Unit := modify fun n => { n with clock := n.clock + max d 0 }

def note (e : AccountEntry) : Accountant Unit := modify fun n => { n with log := e :: n.log }

/-- `bcrypt.checkpw`, which raises a `ValueError` for a password it does not take. -/
def checkpw (password passwordHash : String) : Except Failure Bool :=
  if A.encodable password then .ok (A.checkpw password passwordHash) else .error .internal

def isInitialized : Accountant Bool := do
  return (← getConfig "password_hash").isSome

/-- `register_local_user`; the salts are what `gensalt` and `token_hex` return. -/
def registerLocalUser (username password salt dbKeySalt : String) :
    Accountant (Except String Unit) := do
  if ← isInitialized then
    return .error "Local database is already initialized."
  if username = "" ∨ username.length < 3 ∨ 50 < username.length then
    return .error "Username must be between 3 and 50 characters."
  if password.length < 8 then
    return .error "Password must be at least 8 characters."
  if !A.encodable password then
    throw .internal
  -- an `INSERT` of a key that is there raises, and nothing is committed
  if (← getConfig "local_username").isSome ∨ (← getConfig "db_key_salt").isSome then
    return .error "Failed to initialize local account."
  setConfig "local_username" (L.lower username)
  setConfig "password_hash" (A.hashpw password salt)
  setConfig "db_key_salt" dbKeySalt
  return .ok ⟨⟩

/-- The lock after so many failures, in seconds. -/
def lockDuration (attempts : ℤ) : ℚ :=
  if 20 ≤ attempts then 1800
  else if 10 ≤ attempts then 300
  else if 5 ≤ attempts then 60
  else 0

/-- The failures with one more, from the text that counts them. -/
def nextAttempts (attemptsStr : Option String) : ℤ :=
  match A.int (attemptsStr.getD "0") with
  | some attempts => attempts + 1
  | none => 1

/-- `register_failed_attempt`. -/
def registerFailedAttempt : Accountant Unit := do
  let attempts := nextAttempts A (← getConfig "failed_login_attempts")
  setConfig "failed_login_attempts" (toString attempts)
  note (.failed (← get).clock)
  if 0 < lockDuration attempts then
    setConfig "lockout_until" (A.strFloat ((← get).clock + lockDuration attempts))

/-- How long the account is locked yet, if it is. -/
def lockedFor : Accountant (Option ℚ) := do
  match truthy (← getConfig "lockout_until") with
  | none => return none
  | some lockoutUntil =>
    match A.float lockoutUntil with
    | none => return none
    | some lockoutUntil =>
      let remaining := lockoutUntil - (← get).clock
      return if 0 < remaining then some remaining else none

/-- The end of `login_local_user` after a wrong guess. -/
def wrongCredentials (checking : ℚ) : Accountant (Except String Unit) := do
  wait checking
  registerFailedAttempt A
  return .error "Wrong credentials."

/-- The end of `login_local_user` after the right guess. -/
def rightCredentials (checking : ℚ) : Accountant (Except String Unit) := do
  wait checking
  setConfig "failed_login_attempts" "0"
  setConfig "lockout_until" ""
  note (.passed (← get).clock)
  return .ok ⟨⟩

/-- `login_local_user` of an account that is not locked; the check takes a while. -/
def tryPassword (username password dummyHash : String) (checking : ℚ) :
    Accountant (Except String Unit) := do
  match ← getConfig "password_hash", ← getConfig "local_username" with
  | some storedHash, some storedUser =>
    if L.lower username ≠ storedUser then
      let _ ← ofExcept (checkpw A password dummyHash)
      wrongCredentials A checking
    else if ← ofExcept (checkpw A password storedHash) then
      rightCredentials checking
    else
      wrongCredentials A checking
  | _, _ => return .error "Invalid configuration."

/-- `login_local_user`. -/
def loginLocalUser (username password dummyHash : String) (checking : ℚ) :
    Accountant (Except String Unit) := do
  if !(← isInitialized) then
    return .error "App not initialized yet."
  match ← lockedFor A with
  | some remaining =>
    -- the `ValueError` of a password that `bcrypt` does not take is swallowed
    if A.encodable password then
      return .error ("Account is locked. Try again in " ++ toString (⌊remaining⌋ + 1) ++
        " seconds.")
    tryPassword L A username password dummyHash checking
  | none => tryPassword L A username password dummyHash checking

/-! ## The keys of the sessions -/

/-- How long a key is held, in seconds. -/
def keyLifetime : ℚ := 28800

/-- `cache_db_key`; the id is what `uuid4` returns. -/
def cacheDbKey (dbKeyHex dbKeyId : String) : Accountant String := do
  modify fun n => { n with
    keyCache := (n.keyCache.filter fun e => ¬ e.2.2 < n.clock).insert dbKeyId
      (dbKeyHex, n.clock + keyLifetime) }
  return dbKeyId

/-- What the server holds for an id; a key that has expired is dropped. -/
def lookUpDbKey (dbKeyId : String) : Accountant (Option String) := do
  let n ← get
  match n.keyCache.get? dbKeyId with
  | none => return none
  | some (dbKeyHex, expiry) =>
    if n.clock < expiry then return some dbKeyHex
    set { n with keyCache := n.keyCache.erase dbKeyId }
    return none

def getDbKeyHex (session : Session) : Accountant (Option String) :=
  match truthy session.dbKeyId with
  | none => return none
  | some dbKeyId => lookUpDbKey dbKeyId

/-- The key that `login` derives: the salt of the account, or the one of old databases. -/
def deriveDbKey (password : String) (config : Dict String String) : Except Failure String :=
  match truthy (config.get? "db_key_salt") with
  | some salt =>
    match fromHex salt.toList with
    | some salt => .ok (String.ofList (toHex (A.pbkdf2 password salt 600000).1))
    | none => .error .internal
  | none =>
    .ok (String.ofList
      (toHex (A.pbkdf2 password "salt_for_db_key_anonymus".toUTF8.toList 10000).1))

/-! ## Sessions -/

def register (data : Body) (salt dbKeySalt : String) : Accountant (Except String Unit) := do
  ofExcept (validateJsonSchema L [("username", .str), ("password", .str)] data)
  let username ← ofExcept (getStr data "username")
  let password ← ofExcept (getStr data "password")
  if password.length < 8 then
    throw (.http 400 "Password must be at least 8 characters.")
  registerLocalUser L A username password salt dbKeySalt

/-- What `login` takes from elsewhere. -/
structure LoginChance where
  dummyHash : String
  /-- How long `checkpw` and `pbkdf2_hmac` take. -/
  checking  : ℚ
  derivation : ℚ
  /-- What `uuid4` returns. -/
  dbKeyId   : String

def login (session : Session) (data : Body) (chance : LoginChance) :
    Accountant (Except String Unit × Session) := do
  ofExcept (validateJsonSchema L [("username", .str), ("password", .str)] data)
  let username ← ofExcept (getStr data "username")
  let password ← ofExcept (getStr data "password")
  match ← loginLocalUser L A username password chance.dummyHash chance.checking with
  | .error e => return (.error e, session)
  | .ok _ =>
    let dbKeyHex ← ofExcept (deriveDbKey A password (← get).tables.config)
    wait chance.derivation
    let dbKeyId ← cacheDbKey dbKeyHex chance.dbKeyId
    note (.loggedIn (← get).clock password dbKeyId dbKeyHex)
    return (.ok ⟨⟩, ⟨some username, some dbKeyId, some "default"⟩)

def logout (session : Session) : Accountant Session := do
  match truthy session.dbKeyId with
  | some dbKeyId =>
    modify fun n => { n with keyCache := n.keyCache.erase dbKeyId }
    note (.loggedOut dbKeyId)
  | none => pure ⟨⟩
  return Session.clear

/-- The server process starts again: what it held in memory is lost. -/
def restart : Accountant Unit := do
  modify fun n => { n with keyCache := Dict.empty }
  note .restarted

/-! ## The secrets of the contacts -/

/-- What happens to a secret on its way to the database and back, with the text of the key. -/
structure Cipher where
  encrypt : (plaintext dbKeyHex : String) → (nonce : Bytes 12) → Except Failure String
  decrypt : (ciphertext dbKeyHex : String) → Except Failure String

/-- `encrypt_secret` and `decrypt_secret`. -/
def Cipher.aesGcm : Cipher where
  encrypt plaintext dbKeyHex nonce :=
    if plaintext = "" then .ok plaintext
    else if dbKeyHex = "" then .error .internal
    else match fromHex dbKeyHex.toList with
      | none => .error .internal
      | some key =>
        let ct := A.gcmEncrypt key nonce.1 plaintext.toUTF8.toList
        .ok (String.ofList (b64encode (nonce.1 ++ ct)))
  decrypt ciphertext dbKeyHex :=
    if ciphertext = "" then .ok ciphertext
    else if dbKeyHex = "" then .error .internal
    else match a2bBase64 0 0 0 [] ciphertext.toList with
      | .error _ => .error .internal
      | .ok data =>
        if data.length < 12 then .error .internal
        else match fromHex dbKeyHex.toList with
          | none => .error .internal
          | some key =>
            match (A.gcmDecrypt key (data.take 12) (data.drop 12)).bind Utf8.read? with
            | some text => .ok text
            | none => .error .internal

/-- No encryption at all. -/
def Cipher.clear : Cipher where
  encrypt plaintext _ _ := .ok plaintext
  decrypt ciphertext _ := .ok ciphertext

variable (K : Cipher)

/-- The secret of a row, as the queries return it. -/
def openSecret (secret dbKey : Option String) : Except Failure (Option String) :=
  match truthy secret, truthy dbKey with
  | some ciphertext, some dbKey => (K.decrypt ciphertext dbKey).map some
  | _, _ => .ok secret

/-- The secret of `update_contact_secret`, as it is stored. -/
def sealSecret (secret dbKey : Option String) (nonce : Bytes 12) :
    Except Failure (Option String) :=
  match truthy secret, truthy dbKey with
  | some plaintext, some dbKey => (K.encrypt plaintext dbKey nonce).map some
  | _, _ => .ok secret

/-- `get_contact`. -/
def getContact (onion : String) (dbKey : Option String) : Accountant (Option HandshakeContact) := do
  match (← get).tables.contacts.get? (normalized L onion) with
  | none => return none
  | some contact =>
    let sharedSecret ← ofExcept (openSecret K contact.sharedSecret dbKey)
    return some { contact with sharedSecret }

/-- `update_contact_secret`. -/
def updateContactSecret (onion : String) (secret peerPublicKey dbKey : Option String)
    (nonce : Bytes 12) : Accountant Unit := do
  let sharedSecret ← ofExcept (sealSecret K secret dbKey nonce)
  modify fun n => { n with
    tables := n.tables.updateContactSecret L onion sharedSecret peerPublicKey }

/-- The rows of `get_contacts`: the address, the own public key for it, and the contact. -/
def contactRows (profileId : String) (dbKey : Option String) (tables : HandshakeNode) :
    Except Failure (List (String × Option String × HandshakeContact)) :=
  (tables.contacts.entries.filter fun e => e.2.profileId = profileId).mapM fun e => do
    let sharedSecret ← openSecret K e.2.sharedSecret dbKey
    return (e.1, tables.config.get? ("my_pubkey_for_" ++ e.1), { e.2 with sharedSecret })

/-- `if "username" not in session`. -/
def requireLogin (session : Session) : Except Failure Unit :=
  if session.username.isSome then .ok ⟨⟩ else .error (.http 401 "Unauthorized")

/-- `get_contacts` of the server. -/
def contacts (session : Session) :
    Accountant (List (String × Option String × HandshakeContact)) := do
  ofExcept (requireLogin session)
  let dbKey ← getDbKeyHex session
  ofExcept (contactRows K (session.activeProfileId.getD "default") dbKey (← get).tables)

/-- `add_contact` of the server, up to the request to the peer; `displayName` is what `token_hex`
returns. -/
def addContact (session : Session) (data : Body) (displayName : String) : Accountant Unit := do
  ofExcept (validateJsonSchema L
    [("onion_address", .str), ("nickname", .str), ("my_public_key", .str)] data)
  ofExcept (requireLogin session)
  let onion := onionOf L (normalized L (← ofExcept (getStr data "onion_address")))
  let nickname ← ofExcept (getStr data "nickname")
  let nickname ← ofExcept ((validateNickname (strip nickname)).mapError
    fun _ => .http 400 "Invalid nickname.")
  let myPublicKey ← ofExcept (getStr data "my_public_key")
  if myPublicKey = "" || !isValidBase64Like 5000 (.str myPublicKey) then
    throw (.http 400 "Invalid public key format or size.")
  match onion with
  | none => throw (.http 400 "Invalid onion address.")
  | some onion =>
    let myOnion ← getConfig "my_onion_address"
    let contact : HandshakeContact := ⟨nickname, none, none, "pending_outgoing", myOnion,
      some displayName, session.activeProfileId.getD "default", none⟩
    modify fun n => { n with tables := n.tables.addContact L onion contact }
    setConfig ("my_pubkey_for_" ++ onion) myPublicKey

/-- `accept_contact`, up to the request to the peer. -/
def acceptContact (session : Session) (data : Body) (nonce : Bytes 12) : Accountant Unit := do
  ofExcept (validateJsonSchema L
    [("onion_address", .str), ("my_public_key", .str), ("shared_secret", .str)] data)
  ofExcept (requireLogin session)
  let onion ← ofExcept (getStr data "onion_address")
  let onion ← ofExcept (validOnion L onion)
  let sharedSecret ← ofExcept (getStr data "shared_secret")
  let dbKey ← getDbKeyHex session
  match ← getContact L K onion dbKey with
  | none => throw (.http 404 "Contact not found.")
  | some contact =>
    updateContactSecret L K onion (some sharedSecret) contact.peerPublicKey dbKey nonce

def saveSecret (session : Session) (data : Body) (nonce : Bytes 12) : Accountant Unit := do
  ofExcept (validateJsonSchema L
    [("onion_address", .str), ("shared_secret", .str), ("peer_public_key", .str)] data)
  ofExcept (requireLogin session)
  let onion ← ofExcept (getStr data "onion_address")
  let onion ← ofExcept (validOnion L onion)
  let sharedSecret ← ofExcept (getStr data "shared_secret")
  let peerPublicKey ← ofExcept (getStr data "peer_public_key")
  let dbKey ← getDbKeyHex session
  updateContactSecret L K onion (some sharedSecret) (some peerPublicKey) dbKey nonce

def deleteContact (session : Session) (data : Body) : Accountant Unit := do
  ofExcept (validateJsonSchema L [("onion_address", .str)] data)
  ofExcept (requireLogin session)
  let onion ← ofExcept (getStr data "onion_address")
  let onion ← ofExcept (validOnion L onion)
  modify fun n => { n with
    tables := { n.tables with contacts := n.tables.contacts.erase (normalized L onion) } }

/-- `handle_reset_data`: the contacts go, the credentials stay. -/
def resetData (session : Session) (data : Body) : Accountant Unit := do
  ofExcept (requireLogin session)
  match getJson data "confirm" with
  | .str "RESET" =>
    modify fun n => { n with tables := { n.tables with contacts := Dict.empty } }
  | _ => throw (.http 400 "Confirmation phrase 'RESET' is required")

/-! ## Requests -/

inductive AccountEvent
  | tick (d : ℚ)
  | restart
  | register (data : Body) (salt dbKeySalt : String)
  | login (session : Session) (data : Body) (chance : LoginChance)
  | logout (session : Session)
  | contacts (session : Session)
  | addContact (session : Session) (data : Body) (displayName : String)
  | acceptContact (session : Session) (data : Body) (nonce : Bytes 12)
  | saveSecret (session : Session) (data : Body) (nonce : Bytes 12)
  | deleteContact (session : Session) (data : Body)
  | resetData (session : Session) (data : Body)
  | peer (e : HandshakeEvent)

/-- What the browser gets, or the peer. -/
inductive AccountAnswer
  | done
  | result (r : Except String Unit)
  | session (r : Except String Unit) (session : Session)
  | contacts (rows : List (String × Option String × HandshakeContact))
  | status (text : String)

/-- A request of a peer, which sees the tables only. -/
def handlePeer (e : HandshakeEvent) : Accountant String := fun n =>
  match e.run L n.tables with
  | .ok text tables => .ok text { n with tables }
  | .error failure tables => .error failure { n with tables }

def AccountEvent.run : AccountEvent → Accountant AccountAnswer
  | tick d => do
    wait d
    return .done
  | restart => do
    LocalAccount.restart
    return .done
  | register data salt dbKeySalt => do
    return .result (← LocalAccount.register L A data salt dbKeySalt)
  | login session data chance => do
    let (r, session) ← LocalAccount.login L A session data chance
    return .session r session
  | logout session => do
    return .session (.ok ⟨⟩) (← LocalAccount.logout session)
  | contacts session => do
    return .contacts (← LocalAccount.contacts K session)
  | addContact session data displayName => do
    LocalAccount.addContact L session data displayName
    return .done
  | acceptContact session data nonce => do
    LocalAccount.acceptContact L K session data nonce
    return .done
  | saveSecret session data nonce => do
    LocalAccount.saveSecret L K session data nonce
    return .done
  | deleteContact session data => do
    LocalAccount.deleteContact L session data
    return .done
  | resetData session data => do
    LocalAccount.resetData session data
    return .done
  | peer e => do
    return .status (← handlePeer L e)

/-- The node after a run of requests. -/
def runEvents (σ : List AccountEvent) (n : AccountNode) : AccountNode :=
  σ.foldl (fun n e => (e.run L A K n).state) n

/-- A node without an account. -/
def AccountNode.new : AccountNode where
  tables   := ⟨Dict.empty, Dict.empty, [], []⟩
  keyCache := Dict.empty
  clock    := 0
  log      := []

end

end AnonyMus.P2p.LocalAccount
