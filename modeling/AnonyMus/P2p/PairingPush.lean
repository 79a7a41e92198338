import AnonyMus.P2p.Pairing
import AnonyMus.Python.MlsAgreement

/-!
# From a pairing session to a pushed database

What one device shows of its session, another one types in and pushes its
database with.

* `preparePush_eq_ok_iff`, `sealDatabase_eq_ok_iff` — when a request goes out, and
  what is in it;
* `EndToEnd` — it goes out, the server accepts it, and writes the database;
* `endToEnd_of_token` — which is so with the token of the session, and an address
  that is allowed;
* `never_endToEnd` — and never with what `sync_pair_token` returns.
-/

namespace AnonyMus.P2p.Pairing

open EStateM
open Relay (strip)
open Python (Crypto Library PyError b64decode b64decode_b64encode fromPublicBytes exchange sample
  sample_agrees sampleLibrary)
open Python.Mls (Opens opens_sampleLibrary sampleHkdf)

/-- How a request reaches the server, and when. -/
structure Route where
  peer         : String
  forwardedFor : String
  arrived      : Double
  finished     : Double

def PushedRequest.arrive (request : PushedRequest) (via : Route) : PairingRequest where
  path         := pairingPath
  peer         := via.peer
  forwardedFor := via.forwardedFor
  body         := some request.json
  arrived      := via.arrived
  finished     := via.finished

section

variable {Priv : Type} (C : Crypto Priv) (L : Library) (S : PairingLibrary)

/-- The push passes its checks, the server accepts the request, and has the database of the
pushing device afterwards. -/
def EndToEnd (body : PushSyncRequest) (clientPriv : Priv) (iv : Bytes 12) (via : Route)
    (pushing serving : Device Priv) : Prop :=
  ∃ request database, preparePush C L S body clientPriv iv pushing = .ok request ∧
    pushing.database = some database ∧
    (doPost C L S (request.arrive via) serving).1 = accepted ∧
    (doPost C L S (request.arrive via) serving).2.database = some database

variable {C L S} {body : PushSyncRequest} {clientPriv : Priv} {iv : Bytes 12} {via : Route}
  {pushing serving : Device Priv}

/-! ## What is pushed -/

theorem sealDatabase_eq_ok_iff {dbBytes : List UInt8} {payload : List (String × Json)} :
    sealDatabase C L S body clientPriv iv dbBytes = .ok payload ↔
      ∃ peerPub sharedKey salt ciphertext,
        b64decode (.text body.k.toList) = .ok peerPub.1 ∧
        C.exchange clientPriv peerPub = some sharedKey ∧ pushSalt body = .ok salt ∧
        L.aesgcmEncrypt (S.hkdf salt syncInfo sharedKey.1).1 iv.1 dbBytes [] = .ok ciphertext ∧
        payload =
          [("client_public_key", .str (String.ofList (b64encode (C.publicBytes clientPriv).1))),
            ("iv", .str (String.ofList (b64encode iv.1))),
            ("ciphertext", .str (String.ofList (b64encode ciphertext))),
            ("pin", .str body.pin)] := by
  unfold sealDatabase
  simp only [except_bind_eq_ok_iff, exchange_eq_ok_iff, fromPublicBytes_eq_ok_iff]
  constructor
  · rintro ⟨_, hk, peerPub, rfl, sharedKey, hshared, salt, hsalt, ciphertext, hseal, hpayload⟩
    exact ⟨peerPub, sharedKey, salt, ciphertext, hk, hshared, hsalt, hseal,
      (Except.ok.inj hpayload).symm⟩
  · rintro ⟨peerPub, sharedKey, salt, ciphertext, hk, hshared, hsalt, hseal, rfl⟩
    exact ⟨_, hk, peerPub, rfl, sharedKey, hshared, salt, hsalt, ciphertext, hseal, rfl⟩

/-- The checks of the push. -/
theorem preparePush_eq_ok_iff {request : PushedRequest} :
    preparePush C L S body clientPriv iv pushing = .ok request ↔
      ∃ dbBytes payload targetIp, pushing.database = some dbBytes ∧
        sealDatabase C L S body clientPriv iv dbBytes = .ok payload ∧
        S.ipAddress body.ip = some targetIp ∧ targetIp.notAllowed = false ∧
        request = ⟨"http://" ++ targetIp.compressed ++ ":" ++ toString body.port ++ pairingPath,
          .obj payload⟩ := by
  unfold preparePush
  have hport : ¬ (body.port < 1 ∨ 65535 < body.port) := by
    have hpos := body.port_pos
    have hle := body.port_le
    omega
  constructor
  · intro h
    rcases hdb : pushing.database with _ | dbBytes
    · rw [hdb] at h
      cases h
    · rw [hdb] at h
      obtain ⟨payload, hseal, h⟩ := except_bind_eq_ok_iff.mp h
      rcases hip : S.ipAddress body.ip with _ | targetIp
      · rw [hip] at h
        cases h
      · rw [hip] at h
        dsimp only at h
        rcases hallowed : targetIp.notAllowed with _ | _
        · rw [hallowed, if_neg Bool.false_ne_true, if_neg hport] at h
          exact ⟨dbBytes, payload, targetIp, rfl, mapError_eq_ok_iff.mp hseal, rfl, hallowed,
            (Except.ok.inj h).symm⟩
        · rw [hallowed, if_pos rfl] at h
          cases h
  · rintro ⟨dbBytes, payload, targetIp, hdb, hseal, hip, hallowed, rfl⟩
    rw [hdb]
    refine except_bind_eq_ok_iff.mpr ⟨payload, mapError_eq_ok_iff.mpr hseal, ?_⟩
    rw [hip]
    dsimp only
    rw [hallowed, if_neg Bool.false_ne_true, if_neg hport]
    rfl

theorem decodeMember_b64encode {members : List (String × Json)} {member : String}
    {data : List UInt8} (h : members.lookup member = some (.str (String.ofList (b64encode data)))) :
    decodeMember members member = .ok data := by
  unfold decodeMember
  rw [h]
  dsimp only
  rw [String.toList_ofList, b64decode_b64encode]
  rfl

/-! ## With the token -/

/-- A body made of what a session has shown, and of its token. -/
structure PushSyncRequest.Names (key : Priv) (pin : PairingToken) (salt : Bytes 16)
    (body : PushSyncRequest) : Prop where
  k    : body.k = String.ofList (b64encode (C.publicBytes key).1)
  salt : body.salt = String.ofList (b64encode salt.1)
  pin  : strip body.pin = pin.1

/-- A session opens what is pushed under its keys. -/
theorem carries_of_seal (hopens : Opens L) (hagrees : C.Agrees) {key : Priv} {pin : PairingToken}
    {salt : Bytes 16} (hnames : body.Names (C := C) key pin salt) {dbBytes : List UInt8}
    (hsqlite : isSqlite dbBytes = true) {payload : List (String × Json)}
    (hseal : sealDatabase C L S body clientPriv iv dbBytes = .ok payload) :
    Carries C L S key pin salt (some (.obj payload)) dbBytes := by
  obtain ⟨peerPub, sharedKey, salt', ciphertext, hk, hshared, hsalt, hseal, rfl⟩ :=
    sealDatabase_eq_ok_iff.mp hseal
  -- both sides derive the same key
  rw [hnames.k, String.toList_ofList, b64decode_b64encode] at hk
  obtain rfl := Subtype.ext (Except.ok.inj hk)
  obtain ⟨shared, hours, htheirs⟩ := hagrees clientPriv key
  obtain rfl := Option.some.inj (hours.symm.trans hshared)
  have hsalt' : salt' = salt.1 := by
    have hne : body.salt ≠ "" := by
      rw [hnames.salt]
      intro hempty
      have hnil := congrArg String.toList hempty
      rw [String.toList_ofList, String.toList_empty, b64encode_eq_nil_iff] at hnil
      have hlen := salt.2
      rw [hnil] at hlen
      cases hlen
    rw [pushSalt, if_pos hne, hnames.salt, String.toList_ofList, b64decode_b64encode] at hsalt
    exact (Except.ok.inj hsalt).symm
  rw [hsalt'] at hseal
  refine ⟨_, body.pin, C.publicBytes clientPriv, shared, iv.1, ciphertext, rfl, rfl, hnames.pin,
    ?_, htheirs, ?_, ?_, hopens _ _ _ _ _ hseal, hsqlite⟩
  · exact decodeMember_b64encode rfl
  · exact decodeMember_b64encode rfl
  · exact decodeMember_b64encode rfl

/-- What is pushed with the token of a session, to an address that is allowed, arrives. -/
theorem endToEnd_of_token (hopens : Opens L) (hagrees : C.Agrees) {key : Priv}
    {pin : PairingToken} {salt : Bytes 16} (hserves : serving.Serves key pin salt)
    (hnames : body.Names (C := C) key pin salt) {request : PushedRequest}
    (hprepare : preparePush C L S body clientPriv iv pushing = .ok request)
    (hsqlite : ∀ dbBytes, pushing.database = some dbBytes → isSqlite dbBytes = true)
    (hfree : serving.rateLimiter.isBlocked (clientIpOf (request.arrive via)) via.arrived = false) :
    EndToEnd C L S body clientPriv iv via pushing serving := by
  obtain ⟨dbBytes, payload, targetIp, hdb, hseal, -, -, hrequest⟩ :=
    preparePush_eq_ok_iff.mp hprepare
  refine ⟨request, dbBytes, hprepare, hdb, ?_⟩
  have hcarries := carries_of_seal hopens hagrees hnames (hsqlite dbBytes hdb) hseal
  have hread : readPairing C L S (request.arrive via).body serving = .ok dbBytes := by
    rw [hrequest]
    exact (readPairing_eq_ok_iff hserves).mpr hcarries
  rcases doPost_cases (C := C) (L := L) (S := S) (request.arrive via) serving with
    ⟨decrypted, hread', -, -, hpost⟩ | ⟨answer, limiter, -, -, hnot⟩
  · obtain rfl := Except.ok.inj (hread.symm.trans hread')
    rw [hpost]
    exact ⟨rfl, database_restore dbBytes serving⟩
  · exact absurd ⟨rfl, hfree, dbBytes, hread⟩ hnot

/-! ## With the mask -/

/-- What is typed in as the token is in the request. -/
theorem pin_of_preparePush {request : PushedRequest}
    (h : preparePush C L S body clientPriv iv pushing = .ok request) :
    ∃ members, request.json = .obj members ∧ members.lookup "pin" = some (.str body.pin) := by
  obtain ⟨dbBytes, payload, targetIp, -, hseal, -, -, rfl⟩ := preparePush_eq_ok_iff.mp h
  obtain ⟨peerPub, sharedKey, salt, ciphertext, -, -, -, -, rfl⟩ := sealDatabase_eq_ok_iff.mp hseal
  exact ⟨_, rfl, rfl⟩

/-- The token is the first thing that the server compares. -/
theorem readPairing_of_masked {members : List (String × Json)}
    (hpin : members.lookup "pin" = some (.str maskedPin)) {key : Priv} {salt : Bytes 16}
    {pin : PairingToken} (hkey : serving.pairingPrivateKey = some key)
    (hsalt : serving.pairingHkdfSalt = some salt) (htoken : serving.activePairingPin = some pin) :
    readPairing C L S (some (.obj members)) serving = .error .wrongPin := by
  have hprovided : providedPin members = .ok maskedPin := by
    unfold providedPin
    rw [hpin]
    exact congrArg Except.ok (by decide : strip maskedPin = maskedPin)
  have hcheck : checkPin (some pin) maskedPin = .error .wrongPin := by
    unfold checkPin
    dsimp only
    rw [if_neg (by decide), if_pos (token_ne_masked pin).symm]
  unfold readPairing
  rw [hkey, hsalt, htoken]
  show (providedPin members >>= fun given => checkPin (some pin) given >>= fun _ => _) = _
  rw [hprovided, except_ok_bind, hcheck]
  rfl

/-- The device after `sync_pair` has keys and a token. -/
theorem syncPair_eq_ok {username : Option String} {ip : String} {generated : Priv}
    {token : Bytes 32} {salt : Bytes 16} {source paired : Device Priv} {pairing : PairResponse}
    (h : syncPair C username ip generated token salt source = .ok pairing paired) :
    ∃ key pin salt', paired.pairingPrivateKey = some key ∧ paired.activePairingPin = some pin ∧
      paired.pairingHkdfSalt = some salt' ∧ pairing = pairResponse C ip key salt' := by
  unfold syncPair at h
  rw [apply_bind, apply_get] at h
  dsimp only at h
  obtain ⟨⟨⟩, source', hauth, h⟩ := ok_of_bind h
  obtain rfl : source = source' := by
    rw [apply_ofExcept] at hauth
    split at hauth
    · exact (EStateM.Result.ok.inj hauth).2
    · cases hauth
  rcases hsession : source.session? with _ | ⟨key, pin, salt'⟩
  · rw [hsession] at h
    obtain ⟨rfl, rfl⟩ := EStateM.Result.ok.inj h
    exact ⟨_, _, _, rfl, rfl, rfl, rfl⟩
  · rw [hsession] at h
    obtain ⟨rfl, rfl⟩ := EStateM.Result.ok.inj h
    have hserves := session?_eq_some_iff.mp hsession
    exact ⟨key, pin, salt', hserves.key, hserves.pin, hserves.salt, rfl⟩

theorem syncPairToken_pin {username : Option String} {tokens : TokenResponse} {d : Device Priv}
    (h : syncPairToken username d = .ok tokens) : tokens.pin = maskedPin := by
  unfold syncPairToken at h
  obtain ⟨⟨⟩, -, h⟩ := except_bind_eq_ok_iff.mp h
  split at h
  · obtain rfl := Except.ok.inj h
    rfl
  · cases h

variable (C L S)

/-- What the endpoints have returned does not pair two devices. -/
theorem never_endToEnd {username username' : Option String} {ip : String} {generated : Priv}
    {token : Bytes 32} {salt : Bytes 16} {source paired : Device Priv} {pairing : PairResponse}
    {tokens : TokenResponse}
    (hpair : syncPair C username ip generated token salt source = .ok pairing paired)
    (htoken : syncPairToken username' paired = .ok tokens)
    (body : PushSyncRequest) (hgiven : body.ip = pairing.ip ∧ body.port = pairing.port ∧
      body.k = pairing.k ∧ body.salt = pairing.salt ∧ body.pin = tokens.pin)
    (clientPriv : Priv) (iv : Bytes 12) (via : Route) (pushing : Device Priv) :
    ¬ EndToEnd C L S body clientPriv iv via pushing (runServer paired) := by
  rintro ⟨request, database, hprepare, -, haccepted, -⟩
  obtain ⟨members, hjson, hlookup⟩ := pin_of_preparePush hprepare
  rw [hgiven.2.2.2.2.trans (syncPairToken_pin htoken)] at hlookup
  obtain ⟨key, pin, salt', hkey, hpin, hsalt, -⟩ := syncPair_eq_ok hpair
  have hrefused : readPairing C L S (request.arrive via).body (runServer paired) =
      .error .wrongPin := by
    show readPairing C L S (some request.json) _ = _
    rw [hjson]
    exact readPairing_of_masked hlookup hkey hsalt hpin
  rcases doPost_cases (C := C) (L := L) (S := S) (request.arrive via) (runServer paired) with
    ⟨decrypted, hread, -⟩ | ⟨answer, limiter, hanswer, hpost, -⟩
  · cases hrefused.symm.trans hread
  · rw [hpost] at haccepted
    exact hanswer haccepted

end

/-! ## A session and a push -/

/-- One address that is public, and one of a local network. -/
def plainPairing : PairingLibrary where
  hkdf        := sampleHkdf
  ipAddress
    | "8.8.8.8" => some ⟨"8.8.8.8", false, false, false, false, false, false⟩
    | "192.168.1.20" => some ⟨"192.168.1.20", true, false, false, false, false, false⟩
    | _ => none

def emptySqlite : List UInt8 := "SQLite format 3\x00".toUTF8.toList

def annDevice : Device UInt8 where
  users               := ["ann"]
  dbPath              := "/anonymus.db"
  files               := Dict.empty.insert "/anonymus.db" emptySqlite
  activePairingBroker := false
  pairingPrivateKey   := none
  activePairingPin    := none
  pairingHkdfSalt     := none
  rateLimiter         := .empty

/-- After `sync_pair` has drawn key 2, and zeros. -/
def pairedDevice : Device UInt8 :=
  { annDevice with
    pairingPrivateKey := some 2
    activePairingPin := some (PairingToken.of (Bytes.replicate 32 0))
    pairingHkdfSalt := some (Bytes.replicate 16 0) }

def shownPairing : PairResponse := pairResponse sample "8.8.8.8" 2 (Bytes.replicate 16 0)

/-- What the pairing shows, with this token. -/
def givenBody (pin : String) : PushSyncRequest where
  ip       := shownPairing.ip
  port     := shownPairing.port
  k        := shownPairing.k
  pin      := pin
  salt     := shownPairing.salt
  ip_ne    := by decide
  port_pos := by decide
  port_le  := by decide
  k_ne     := by decide +kernel

def directRoute : Route := ⟨"8.8.4.4", "", 1, 2⟩

/-- With the token that was drawn. -/
theorem endToEnd_of_token_annDevice :
    EndToEnd sample sampleLibrary plainPairing
      (givenBody (PairingToken.of (Bytes.replicate 32 0)).1) 1 (Bytes.replicate 12 0) directRoute
      annDevice (runServer pairedDevice) := by
  obtain ⟨request, hprepare⟩ : ∃ request, preparePush sample sampleLibrary plainPairing
      (givenBody (PairingToken.of (Bytes.replicate 32 0)).1) 1 (Bytes.replicate 12 0) annDevice =
        .ok request := ⟨_, rfl⟩
  exact endToEnd_of_token opens_sampleLibrary sample_agrees ⟨rfl, rfl, rfl, rfl⟩
    ⟨rfl, rfl, by decide +kernel⟩ hprepare (fun _ h => by cases h; decide +kernel)
    (decide_eq_false (not_lt.mpr (Double.zero_le _)))

theorem syncPair_annDevice :
    syncPair sample (some "ann") "8.8.8.8" 2 (Bytes.replicate 32 0) (Bytes.replicate 16 0) annDevice =
      .ok shownPairing pairedDevice := rfl

theorem syncPairToken_pairedDevice :
    syncPairToken (some "ann") pairedDevice = .ok ⟨maskedPin, "base32-256bit", shownPairing.salt⟩ :=
  rfl

theorem never_endToEnd_annDevice :
    (syncPair sample (some "ann") "8.8.8.8" 2 (Bytes.replicate 32 0) (Bytes.replicate 16 0) annDevice =
      .ok shownPairing pairedDevice ∧
    syncPairToken (some "ann") pairedDevice =
      .ok ⟨maskedPin, "base32-256bit", shownPairing.salt⟩) ∧
    ¬ EndToEnd sample sampleLibrary plainPairing (givenBody maskedPin) 1 (Bytes.replicate 12 0)
      directRoute annDevice (runServer pairedDevice) :=
  ⟨⟨syncPair_annDevice, syncPairToken_pairedDevice⟩,
    never_endToEnd sample sampleLibrary plainPairing syncPair_annDevice syncPairToken_pairedDevice
      (givenBody maskedPin) ⟨rfl, rfl, rfl, rfl, rfl⟩ 1 (Bytes.replicate 12 0) directRoute annDevice⟩

/-- The push goes out, to an address that is allowed, and is answered by 401. -/
theorem masked_push_refused :
    syncPair sample (some "ann") "8.8.8.8" 2 (Bytes.replicate 32 0) (Bytes.replicate 16 0) annDevice =
      .ok shownPairing pairedDevice ∧
    syncPairToken (some "ann") pairedDevice =
      .ok ⟨maskedPin, "base32-256bit", shownPairing.salt⟩ ∧
    (preparePush sample sampleLibrary plainPairing (givenBody maskedPin) 1 (Bytes.replicate 12 0)
      annDevice).toOption.map (fun request => (doPost sample sampleLibrary plainPairing
        (request.arrive directRoute) (runServer pairedDevice)).1.1) = some 401 ∧
    ¬ EndToEnd sample sampleLibrary plainPairing (givenBody maskedPin) 1 (Bytes.replicate 12 0)
      directRoute annDevice (runServer pairedDevice) := by
  have hanswer : (preparePush sample sampleLibrary plainPairing (givenBody maskedPin) 1
      (Bytes.replicate 12 0) annDevice).toOption.map (fun request =>
        (doPost sample sampleLibrary plainPairing (request.arrive directRoute)
          (runServer pairedDevice)).1.1) = some 401 := by
    decide +kernel
  refine ⟨syncPair_annDevice, syncPairToken_pairedDevice, hanswer, ?_⟩
  rintro ⟨request, database, hprepare, -, haccepted, -⟩
  rw [hprepare] at hanswer
  have hstatus := Option.some.inj hanswer
  dsimp only at hstatus
  rw [haccepted] at hstatus
  exact absurd hstatus (by decide)

end AnonyMus.P2p.Pairing
