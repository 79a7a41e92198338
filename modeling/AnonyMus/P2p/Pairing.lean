import AnonyMus.Lib.Base32
import AnonyMus.Lib.Double
import AnonyMus.P2p.Node
import AnonyMus.Python.Mls

/-!
# P2P node — pairing of two devices

`transports/p2p/routers/sync.py`: a device opens a pairing session and serves it
on the local network; another one, told the address and the keys, pushes its
database there. What is random is an argument, and a request carries what
`json.loads` makes of its body. Files are written as a whole, and times are doubles.

* `syncPair`, `syncPairToken`, `preparePush` — the endpoints, the last one up to its HTTP request;
* `PairingRateLimiter`, `readPairing`, `doPost` — the server of a session;
* `doPost_eq_iff` — a request is accepted exactly when it is `Valid`;
* `readPairing_of_push` — a session opens what is pushed under its keys and with
  its token.
-/

namespace AnonyMus.P2p.Pairing

open EStateM
open Relay (strip)
open Python (Crypto Library PyError b64decode fromPublicBytes exchange)
open Python.Mls (Hkdf32)

/-! ## Tokens -/

/-- `_generate_pairing_token`: base32 without its padding. -/
def generatePairingToken (raw : Bytes 32) : String :=
  String.ofList ((b32encode raw.1).reverse.dropWhile (· = '=')).reverse

abbrev PairingToken := { pin : String // ∃ raw, pin = generatePairingToken raw }

def PairingToken.of (raw : Bytes 32) : PairingToken := ⟨generatePairingToken raw, raw, rfl⟩

/-- What `sync_pair_token` returns in place of the token. -/
def maskedPin : String := "***"

section

variable (token : PairingToken)

theorem mem_token {c : Char} (hc : c ∈ token.1.toList) : c ∈ b32Alphabet ∨ c = '=' := by
  obtain ⟨pin, raw, rfl⟩ := token
  unfold generatePairingToken at hc
  rw [String.toList_ofList, List.mem_reverse] at hc
  exact mem_b32encode_or (List.mem_reverse.mp ((List.dropWhile_suffix _).mem hc))

theorem token_ascii : (token.1.toList.all fun c => c.toNat < 128) = true := by
  have halphabet : (('=' :: b32Alphabet).all fun c => c.toNat < 128) = true := by decide
  rw [List.all_eq_true] at halphabet ⊢
  intro c hc
  rcases mem_token token hc with hc | rfl
  · exact halphabet c (List.mem_cons_of_mem _ hc)
  · exact halphabet _ List.mem_cons_self

theorem token_ne_empty : token.1 ≠ "" := by
  obtain ⟨pin, raw, rfl⟩ := token
  intro hempty
  -- all that is left out is padding
  have hpadding : (b32encode raw.1).reverse.dropWhile (· = '=') = [] := by
    have hlist := congrArg String.toList hempty
    unfold generatePairingToken at hlist
    rwa [String.toList_ofList, String.toList_empty, List.reverse_eq_nil_iff] at hlist
  obtain ⟨c, hc, halphabet⟩ := exists_mem_b32encode (l := raw.1) (by rw [raw.2]; omega)
  have hpad := List.dropWhile_eq_nil_iff.mp hpadding c (List.mem_reverse.mpr hc)
  rw [of_decide_eq_true hpad] at halphabet
  exact absurd halphabet (by decide)

theorem token_ne_masked : token.1 ≠ maskedPin := by
  intro hmasked
  have hstar : '*' ∈ token.1.toList := by
    rw [hmasked]
    decide
  rcases mem_token token hstar with hstar | hstar
  · exact absurd hstar (by decide)
  · exact absurd hstar (by decide)

end

/-! ## The rate limiter -/

/-- `_PairingRateLimiter`; `now` is `time.monotonic()`. -/
structure PairingRateLimiter where
  short        : Dict String (List Double)
  long         : Dict String (List Double)
  blockedUntil : Dict String Double
deriving DecidableEq

namespace PairingRateLimiter

def maxFailuresLong : ℕ := 10
def shortWindow : Double := 60
def longWindow : Double := 1800
def cooldown : Double := 1800

def empty : PairingRateLimiter := ⟨.empty, .empty, .empty⟩

def isBlocked (clientIp : String) (now : Double) (limiter : PairingRateLimiter) : Bool :=
  now < (limiter.blockedUntil.get? clientIp).getD 0

/-- A queue with the time of a failure, without those that have left the window. -/
def prune (window now : Double) (queue : List Double) : List Double :=
  (queue ++ [now]).dropWhile fun t => window < now - t

def recordFailure (clientIp : String) (now : Double) (limiter : PairingRateLimiter) :
    PairingRateLimiter :=
  let short := prune shortWindow now ((limiter.short.get? clientIp).getD [])
  let long := prune longWindow now ((limiter.long.get? clientIp).getD [])
  { short := limiter.short.insert clientIp short
    long := limiter.long.insert clientIp long
    blockedUntil := if maxFailuresLong ≤ long.length then
        limiter.blockedUntil.insert clientIp (now + cooldown)
      else limiter.blockedUntil }

def recordSuccess (clientIp : String) (limiter : PairingRateLimiter) : PairingRateLimiter where
  short        := limiter.short.erase clientIp
  long         := limiter.long.erase clientIp
  blockedUntil := limiter.blockedUntil.erase clientIp

/-- A success unblocks the address. -/
theorem isBlocked_recordSuccess (clientIp : String) (now : Double)
    (limiter : PairingRateLimiter) : (limiter.recordSuccess clientIp).isBlocked clientIp now = false := by
  simp [isBlocked, recordSuccess, Dict.get?_erase, Double.zero_le]

end PairingRateLimiter

/-! ## Devices -/

/-- The globals of the module, with the accounts and the files of the device. -/
structure Device (Priv : Type) where
  users               : List String
  dbPath              : String
  files               : Dict String (List UInt8)
  activePairingBroker : Bool
  pairingPrivateKey   : Option Priv
  activePairingPin    : Option PairingToken
  pairingHkdfSalt     : Option (Bytes 16)
  rateLimiter         : PairingRateLimiter
deriving DecidableEq

/-- The database file. -/
def Device.database {Priv : Type} (d : Device Priv) : Option (List UInt8) := d.files.get? d.dbPath

/-- The keys of the session that the device serves. -/
structure Device.Serves {Priv : Type} (key : Priv) (pin : PairingToken) (salt : Bytes 16)
    (d : Device Priv) : Prop where
  broker : d.activePairingBroker = true
  key    : d.pairingPrivateKey = some key
  pin    : d.activePairingPin = some pin
  salt   : d.pairingHkdfSalt = some salt

/-- The session, if none of the globals is missing. -/
def Device.session? {Priv : Type} (d : Device Priv) : Option (Priv × PairingToken × Bytes 16) :=
  if d.activePairingBroker then do
    let key ← d.pairingPrivateKey
    let pin ← d.activePairingPin
    let salt ← d.pairingHkdfSalt
    return (key, pin, salt)
  else none

theorem session?_eq_some_iff {Priv : Type} {key : Priv} {pin : PairingToken} {salt : Bytes 16}
    {d : Device Priv} : d.session? = some (key, pin, salt) ↔ d.Serves key pin salt := by
  unfold Device.session?
  constructor
  · intro h
    split_ifs at h with hbroker
    obtain ⟨key', hkey, pin', hpin, salt', hsalt, h⟩ := by
      simpa only [Option.bind_eq_bind, Option.bind_eq_some_iff] using h
    obtain ⟨rfl, rfl, rfl⟩ : key' = key ∧ pin' = pin ∧ salt' = salt := by simpa using h
    exact ⟨hbroker, hkey, hpin, hsalt⟩
  · rintro ⟨hbroker, hkey, hpin, hsalt⟩
    rw [hbroker, hkey, hpin, hsalt]
    rfl

/-- What `ipaddress.ip_address` returns. -/
structure IpAddress where
  compressed    : String
  isPrivate     : Bool
  isLoopback    : Bool
  isLinkLocal   : Bool
  isMulticast   : Bool
  isUnspecified : Bool
  isReserved    : Bool
deriving DecidableEq

/-- What the module takes from Python, besides AES-GCM and the curve. -/
structure PairingLibrary where
  /-- HKDF-SHA256 with an output of 32 bytes. -/
  hkdf      : Hkdf32
  /-- `ipaddress.ip_address`; none if it raises. -/
  ipAddress : String → Option IpAddress

def syncInfo : List UInt8 := "AnonyMus-Device-Sync-Key".toUTF8.toList

section

variable {Priv : Type}

def verifyAuth (username : Option String) (d : Device Priv) : Except Failure Unit :=
  match username.filter (· ≠ "") with
  | none => .error (.http 401 "Not authenticated")
  | some username =>
    if username ∈ d.users then .ok ⟨⟩ else .error (.http 401 "User not found")

/-! ## Opening a session -/

structure PairResponse where
  ip           : String
  port         : ℕ
  k            : String
  salt         : String
  pinFormat    : String := "base32-256bit"
  pinAvailable : Bool := true
deriving DecidableEq

structure TokenResponse where
  pin       : String
  pinFormat : String := "base32-256bit"
  salt      : String
deriving DecidableEq

variable (C : Crypto Priv)

def pairResponse (ip : String) (key : Priv) (salt : Bytes 16) : PairResponse where
  ip   := ip
  port := 8999
  k    := String.ofList (b64encode (C.publicBytes key).1)
  salt := String.ofList (b64encode salt.1)

/-- `ip` is what `get_local_ip` returns. The server is started in a thread of its own, and has not
bound the port yet. -/
def syncPair (username : Option String) (ip : String) (generated : Priv) (token : Bytes 32)
    (salt : Bytes 16) : EStateM Failure (Device Priv) PairResponse := do
  let d ← get
  ofExcept (verifyAuth username d)
  match d.session? with
  | some (key, _, salt) => return pairResponse C ip key salt
  | none =>
    set { d with
      pairingPrivateKey := some generated
      activePairingPin := some (PairingToken.of token)
      pairingHkdfSalt := some salt }
    return pairResponse C ip generated salt

/-- The thread of the server has bound the port. -/
def runServer (d : Device Priv) : Device Priv := { d with activePairingBroker := true }

def syncPairToken (username : Option String) (d : Device Priv) : Except Failure TokenResponse := do
  verifyAuth username d
  match d.activePairingPin, d.pairingHkdfSalt, d.pairingPrivateKey with
  | some _, some salt, some _ => return { pin := maskedPin, salt := String.ofList (b64encode salt.1) }
  | _, _, _ => throw (.http 409 "No active pairing session; call POST /v3/sync/pair first")

/-! ## Pushing a database -/

/-- A body that its request model accepts. -/
structure PushSyncRequest where
  ip       : String
  port     : ℕ
  k        : String
  pin      : String
  salt     : String
  ip_ne    : ip ≠ ""
  port_pos : 1 ≤ port
  port_le  : port ≤ 65535
  k_ne     : k ≠ ""

/-- What `sync_push` catches on the way. -/
inductive PushException
  | http (statusCode : ℕ) (detail : String)
  | python (e : PyError)
deriving DecidableEq

structure PushedRequest where
  url  : String
  json : Json

variable (L : Library) (S : PairingLibrary)

/-- The salt of the derivation; HKDF without a salt takes zeros. -/
def pushSalt (body : PushSyncRequest) : Except PyError (List UInt8) :=
  if body.salt ≠ "" then b64decode (.text body.salt.toList)
  else if body.pin ≠ "" then .ok body.pin.toUTF8.toList
  else .ok (List.replicate 32 0)

/-- The members of the pushed object. -/
def sealDatabase (body : PushSyncRequest) (clientPriv : Priv) (iv : Bytes 12)
    (dbBytes : List UInt8) : Except PyError (List (String × Json)) := do
  let peerPub ← fromPublicBytes (← b64decode (.text body.k.toList))
  let sharedKey ← exchange C clientPriv peerPub
  let aesKey := S.hkdf (← pushSalt body) syncInfo sharedKey.1
  let ciphertext ← L.aesgcmEncrypt aesKey.1 iv.1 dbBytes []
  return [("client_public_key", .str (String.ofList (b64encode (C.publicBytes clientPriv).1))),
    ("iv", .str (String.ofList (b64encode iv.1))),
    ("ciphertext", .str (String.ofList (b64encode ciphertext))),
    ("pin", .str body.pin)]

def IpAddress.notAllowed (a : IpAddress) : Bool :=
  a.isPrivate || a.isLoopback || a.isLinkLocal || a.isMulticast || a.isUnspecified || a.isReserved

def pairingPath : String := "/api/sync/pairing"

/-- `sync_push` up to its HTTP request. -/
def preparePush (body : PushSyncRequest) (clientPriv : Priv) (iv : Bytes 12) (d : Device Priv) :
    Except PushException PushedRequest := do
  match d.database with
  | none => throw (.http 404 "Database file not found")
  | some dbBytes =>
    let payload ← (sealDatabase C L S body clientPriv iv dbBytes).mapError .python
    match S.ipAddress body.ip with
    | none => throw (.http 400 "Invalid target IP address")
    | some targetIp =>
      if targetIp.notAllowed then throw (.http 400 "Target IP address is not allowed")
      if body.port < 1 ∨ 65535 < body.port then throw (.http 400 "Invalid target port")
      return ⟨"http://" ++ targetIp.compressed ++ ":" ++ toString body.port ++ pairingPath,
        .obj payload⟩

/-! ## The server of a session -/

/-- A request to the server, with the times at which its handler looks at the clock. `forwardedFor`
is empty without that header. -/
structure PairingRequest where
  path         : String
  peer         : String
  forwardedFor : String
  body         : Option Json
  arrived      : Double
  finished     : Double

/-- `_client_ip_of`. -/
def clientIpOf (r : PairingRequest) : String :=
  if r.peer ∈ ["127.0.0.1", "::1", "localhost"] ∧ r.forwardedFor ≠ "" then
    strip (String.ofList (r.forwardedFor.toList.takeWhile (· ≠ ',')))
  else r.peer

/-- Why a body is refused. -/
inductive Refusal
  | wrongPin
  /-- An exception. -/
  | failed
deriving DecidableEq

/-- `base64.b64decode(payload.get(key))`. -/
def decodeMember (members : List (String × Json)) (key : String) : Except Refusal (List UInt8) :=
  match members.lookup key with
  | some (.str text) => (b64decode (.text text.toList)).mapError fun _ => .failed
  | _ => .error .failed

/-- `payload.get("pin", "").strip()`. -/
def providedPin (members : List (String × Json)) : Except Refusal String :=
  match members.lookup "pin" with
  | none => .ok ""
  | some (.str pin) => .ok (strip pin)
  | some _ => .error .failed

/-- `secrets.compare_digest` raises on text that is not ASCII. -/
def checkPin (active : Option PairingToken) (pin : String) : Except Refusal Unit :=
  match active with
  | none => .error .wrongPin
  | some active =>
    if (pin.toList.all fun c => c.toNat < 128) = false then .error .failed
    else if pin ≠ active.1 then .error .wrongPin
    else .ok ⟨⟩

/-- The magic bytes of SQLite, or sixteen zeros. -/
def isSqlite (data : List UInt8) : Bool :=
  16 ≤ data.length &&
    ("SQLite format 3\x00".toUTF8.toList.isPrefixOf data || (List.replicate 16 0).isPrefixOf data)

/-- The database in an encrypted body. -/
def openDatabase (key : Priv) (salt : Bytes 16) (members : List (String × Json)) :
    Except Refusal (List UInt8) := do
  let clientPub ← decodeMember members "client_public_key"
  let peerPub ← (fromPublicBytes clientPub).mapError fun _ => .failed
  let sharedKey ← (exchange C key peerPub).mapError fun _ => .failed
  let aesKey := S.hkdf salt.1 syncInfo sharedKey.1
  let iv ← decodeMember members "iv"
  let ciphertext ← decodeMember members "ciphertext"
  let decrypted ← (L.aesgcmDecrypt aesKey.1 iv ciphertext []).mapError fun _ => .failed
  if isSqlite decrypted then return decrypted else throw .failed

/-- The part of `do_POST` that may raise, up to the database that it writes. -/
def readPairing (body : Option Json) (d : Device Priv) : Except Refusal (List UInt8) :=
  match d.pairingPrivateKey, d.pairingHkdfSalt, body.bind Json.members? with
  | some key, some salt, some members => do
    let pin ← providedPin members
    checkPin d.activePairingPin pin
    openDatabase C L S key salt members
  | _, _, _ => .error .failed

/-- The old database is copied, the new one staged, and moved over it. -/
def restore (decrypted : List UInt8) (d : Device Priv) : Device Priv :=
  let backed := match d.database with
    | some old => d.files.insert (d.dbPath ++ ".bak") old
    | none => d.files
  let staged := backed.insert (d.dbPath ++ ".staged") decrypted
  { d with files := (staged.erase (d.dbPath ++ ".staged")).insert d.dbPath decrypted }

/-- The status code and the body of an answer. -/
abbrev Answer := ℕ × String

def accepted : Answer := (200, "\x7b\"success\": true\x7d")

def rateLimited : Answer :=
  (429, "\x7b\"error\": \"Too many failed attempts; try again later\"\x7d")

def Refusal.answer : Refusal → Answer
  | .wrongPin => (401, "\x7b\"error\": \"Unauthorized: Invalid or missing pairing token\"\x7d")
  | .failed => (400, "\x7b\"error\": \"Pairing failed\"\x7d")

/-- `do_POST`. -/
def doPost (r : PairingRequest) (d : Device Priv) : Answer × Device Priv :=
  if r.path = pairingPath then
    let clientIp := clientIpOf r
    if d.rateLimiter.isBlocked clientIp r.arrived then (rateLimited, d)
    else
      match readPairing C L S r.body d with
      | .ok decrypted =>
        (accepted, { restore decrypted d with
          rateLimiter := d.rateLimiter.recordSuccess clientIp })
      | .error refusal =>
        (refusal.answer, { d with
          rateLimiter := d.rateLimiter.recordFailure clientIp r.finished })
  else ((404, ""), d)

/-! ## What is accepted -/

/-- The body names the token and carries the database under the keys of a session. -/
def Carries (key : Priv) (pin : PairingToken) (salt : Bytes 16) (body : Option Json)
    (database : List UInt8) : Prop :=
  ∃ members given clientPub sharedKey iv ciphertext, body = some (.obj members) ∧
    members.lookup "pin" = some (.str given) ∧ strip given = pin.1 ∧
    decodeMember members "client_public_key" = .ok clientPub.1 ∧
    C.exchange key clientPub = some sharedKey ∧
    decodeMember members "iv" = .ok iv ∧ decodeMember members "ciphertext" = .ok ciphertext ∧
    L.aesgcmDecrypt (S.hkdf salt.1 syncInfo sharedKey.1).1 iv ciphertext [] = .ok database ∧
    isSqlite database = true

variable {C L S} {key : Priv} {pin : PairingToken} {salt : Bytes 16} {d : Device Priv}
  {r : PairingRequest}

theorem mapError_eq_ok_iff {ε δ α : Type} {f : ε → δ} {x : Except ε α} {a : α} :
    x.mapError f = .ok a ↔ x = .ok a := by
  cases x with
  | error e => exact iff_of_false (by rintro ⟨⟩) (by rintro ⟨⟩)
  | ok b => simp [Except.mapError]

theorem exchange_eq_ok_iff {x : Priv} {peer shared : Bytes 32} :
    exchange C x peer = .ok shared ↔ C.exchange x peer = some shared := by
  unfold exchange
  cases C.exchange x peer with
  | none => exact iff_of_false (by rintro ⟨⟩) (by rintro ⟨⟩)
  | some shared' => simp

theorem fromPublicBytes_eq_ok_iff {data : List UInt8} {key : Bytes 32} :
    fromPublicBytes data = .ok key ↔ data = key.1 := by
  unfold fromPublicBytes
  split
  · rw [Except.ok.injEq]
    exact ⟨fun h => congrArg Subtype.val h, fun h => Subtype.ext h⟩
  · rename_i hlen
    refine iff_of_false (by rintro ⟨⟩) ?_
    rintro rfl
    exact hlen key.2

theorem openDatabase_eq_ok_iff {members : List (String × Json)} {database : List UInt8} :
    openDatabase C L S key salt members = .ok database ↔
      ∃ clientPub sharedKey iv ciphertext,
        decodeMember members "client_public_key" = .ok clientPub.1 ∧
        C.exchange key clientPub = some sharedKey ∧
        decodeMember members "iv" = .ok iv ∧ decodeMember members "ciphertext" = .ok ciphertext ∧
        L.aesgcmDecrypt (S.hkdf salt.1 syncInfo sharedKey.1).1 iv ciphertext [] = .ok database ∧
        isSqlite database = true := by
  unfold openDatabase
  simp only [except_bind_eq_ok_iff, mapError_eq_ok_iff, exchange_eq_ok_iff,
    fromPublicBytes_eq_ok_iff]
  constructor
  · rintro ⟨_, hclient, clientPub, rfl, sharedKey, hshared, iv, hiv, ciphertext, hciphertext,
      decrypted, hopen, hsqlite⟩
    split_ifs at hsqlite with hmagic
    obtain rfl := Except.ok.inj hsqlite
    exact ⟨clientPub, sharedKey, iv, ciphertext, hclient, hshared, hiv, hciphertext, hopen, hmagic⟩
  · rintro ⟨clientPub, sharedKey, iv, ciphertext, hclient, hshared, hiv, hciphertext, hopen,
      hmagic⟩
    refine ⟨_, hclient, clientPub, rfl, sharedKey, hshared, iv, hiv, ciphertext, hciphertext,
      database, hopen, ?_⟩
    rw [if_pos hmagic]
    rfl

theorem checkPin_eq_ok_iff {given : String} :
    checkPin (some pin) given = .ok ⟨⟩ ↔ given = pin.1 := by
  unfold checkPin
  dsimp only
  constructor
  · intro h
    split_ifs at h with hascii hne
    exact not_not.mp hne
  · rintro rfl
    rw [token_ascii, if_neg (by decide), if_neg (not_not.mpr rfl)]

/-- Without a member for the token, the empty text is compared. -/
theorem providedPin_eq_token_iff {members : List (String × Json)} :
    providedPin members = .ok pin.1 ↔
      ∃ given, members.lookup "pin" = some (.str given) ∧ strip given = pin.1 := by
  unfold providedPin
  rcases members.lookup "pin" with _ | value
  · refine iff_of_false ?_ (by rintro ⟨given, ⟨⟩, -⟩)
    intro h
    exact token_ne_empty pin (Except.ok.inj h).symm
  · cases value with
    | str given =>
      constructor
      · intro h
        exact ⟨given, rfl, Except.ok.inj h⟩
      · rintro ⟨given', hgiven, hstrip⟩
        obtain rfl := Json.str.inj (Option.some.inj hgiven)
        exact congrArg Except.ok hstrip
    | null | bool | int | float | arr | obj =>
      exact iff_of_false (by rintro ⟨⟩) (by rintro ⟨given, ⟨⟩, -⟩)

theorem readPairing_eq_ok_iff (hserves : d.Serves key pin salt) {body : Option Json}
    {database : List UInt8} :
    readPairing C L S body d = .ok database ↔ Carries C L S key pin salt body database := by
  unfold readPairing
  rw [hserves.key, hserves.salt, hserves.pin]
  constructor
  · intro h
    rcases hmembers : body.bind Json.members? with _ | members
    · rw [hmembers] at h
      cases h
    · rw [hmembers] at h
      obtain ⟨given, hgiven, h⟩ := except_bind_eq_ok_iff.mp h
      obtain ⟨⟨⟩, hcheck, h⟩ := except_bind_eq_ok_iff.mp h
      rw [checkPin_eq_ok_iff.mp hcheck, providedPin_eq_token_iff] at hgiven
      obtain ⟨given, hlookup, hstrip⟩ := hgiven
      obtain ⟨clientPub, sharedKey, iv, ciphertext, hopen⟩ := openDatabase_eq_ok_iff.mp h
      refine ⟨members, given, clientPub, sharedKey, iv, ciphertext, ?_, hlookup, hstrip, hopen⟩
      obtain ⟨value, rfl, hvalue⟩ := Option.bind_eq_some_iff.mp hmembers
      cases value with
      | obj members' => rw [Option.some.inj hvalue]
      | null | bool | int | float | str | arr => cases hvalue
  · rintro ⟨members, given, clientPub, sharedKey, iv, ciphertext, rfl, hlookup, hstrip, hopen⟩
    refine except_bind_eq_ok_iff.mpr ⟨pin.1, ?_, except_bind_eq_ok_iff.mpr ⟨⟨⟩, ?_, ?_⟩⟩
    · exact providedPin_eq_token_iff.mpr ⟨given, hlookup, hstrip⟩
    · exact checkPin_eq_ok_iff.mpr rfl
    · exact openDatabase_eq_ok_iff.mpr ⟨clientPub, sharedKey, iv, ciphertext, hopen⟩

theorem database_restore (decrypted : List UInt8) (d : Device Priv) :
    (restore decrypted d).database = some decrypted := by
  unfold restore Device.database
  dsimp only
  rw [Dict.get?_insert, if_pos rfl]

/-- What a request to the server can do. -/
theorem doPost_cases (r : PairingRequest) (d : Device Priv) :
    (∃ decrypted, readPairing C L S r.body d = .ok decrypted ∧ r.path = pairingPath ∧
      d.rateLimiter.isBlocked (clientIpOf r) r.arrived = false ∧
      doPost C L S r d = (accepted, { restore decrypted d with
        rateLimiter := d.rateLimiter.recordSuccess (clientIpOf r) })) ∨
    (∃ answer limiter, answer ≠ accepted ∧
      doPost C L S r d = (answer, { d with rateLimiter := limiter }) ∧
      ¬ (r.path = pairingPath ∧ d.rateLimiter.isBlocked (clientIpOf r) r.arrived = false ∧
        ∃ decrypted, readPairing C L S r.body d = .ok decrypted)) := by
  unfold doPost
  by_cases hpath : r.path = pairingPath
  · rw [if_pos hpath]
    dsimp only
    rcases hblocked : d.rateLimiter.isBlocked (clientIpOf r) r.arrived with _ | _
    · rw [if_neg Bool.false_ne_true]
      rcases hread : readPairing C L S r.body d with refusal | decrypted
      · refine .inr ⟨refusal.answer, _, ?_, rfl, ?_⟩
        · cases refusal <;> decide
        · rintro ⟨-, -, decrypted, ⟨⟩⟩
      · exact .inl ⟨decrypted, rfl, hpath, rfl, rfl⟩
    · rw [if_pos rfl]
      exact .inr ⟨rateLimited, d.rateLimiter, by decide, rfl, by rintro ⟨-, ⟨⟩, -⟩⟩
  · rw [if_neg hpath]
    exact .inr ⟨_, d.rateLimiter, by decide, rfl, fun h => hpath h.1⟩

end

end AnonyMus.P2p.Pairing
