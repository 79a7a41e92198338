import AnonyMus.P2p.PairingPush

/-!
# Replays within a pairing session

Nothing in a session remembers that it has been used: its server runs on, with
the same token and the same keys.

* `PairingEvent.run` — a session: calls of `sync_pair`, and requests to the server;
* `serves_run` — its keys and its token stay as they are;
* `doPost_accepted_iff` — what is accepted does not depend on what came before,
  but for the rate limiter;
* `accepted_again` — a request that has been accepted is accepted again;
* `notReplayed_iff` — so the session is used once exactly when no second valid
  request comes.
-/

namespace AnonyMus.P2p.Pairing

open EStateM
open Python (Crypto Library sample sampleLibrary)

/-! ## Runs of a session -/

inductive PairingEvent (Priv : Type)
  | pair (username : Option String) (ip : String) (generated : Priv) (token : Bytes 32)
      (salt : Bytes 16)
  | runServer
  | post (r : PairingRequest)

section

variable {Priv : Type} (C : Crypto Priv) (L : Library) (S : PairingLibrary)

def PairingEvent.step : PairingEvent Priv → Device Priv → Device Priv
  | .pair username ip generated token salt, d => (syncPair C username ip generated token salt d).state
  | .runServer, d => Pairing.runServer d
  | .post r, d => (doPost C L S r d).2

def PairingEvent.run (e : PairingEvent Priv) : EStateM Empty (Device Priv) Unit :=
  modify (e.step C L S)

/-- After an accepted request, none is accepted and none changes the database. -/
def NotReplayed (events : List (PairingEvent Priv)) (d : Device Priv) : Prop :=
  ∀ done r mid r' todo, events = done ++ .post r :: (mid ++ .post r' :: todo) →
    (doPost C L S r (after (PairingEvent.run C L S) done d)).1 = accepted →
    let before := after (PairingEvent.run C L S) (done ++ .post r :: mid) d
    (doPost C L S r' before).1 ≠ accepted ∧
      (doPost C L S r' before).2.database = before.database

/-- A request with the token that carries a database, from an address that is not blocked. -/
def PairingEvent.Valid (key : Priv) (pin : PairingToken) (salt : Bytes 16) :
    PairingEvent Priv → Device Priv → Prop
  | .post r, d => r.path = pairingPath ∧ (∃ database, Carries C L S key pin salt r.body database) ∧
      d.rateLimiter.isBlocked (clientIpOf r) r.arrived = false
  | _, _ => False

variable {C L S} {key : Priv} {pin : PairingToken} {salt : Bytes 16} {d : Device Priv}
  {r r' : PairingRequest}

/-! ## What a session keeps -/

/-- A call of `sync_pair` returns the session that there is. -/
theorem syncPair_state (hserves : d.Serves key pin salt) (username : Option String) (ip : String)
    (generated : Priv) (token : Bytes 32) (salt' : Bytes 16) :
    (syncPair C username ip generated token salt' d).state = d := by
  unfold syncPair
  rw [apply_bind, apply_get]
  dsimp only
  rw [apply_bind, apply_ofExcept]
  cases verifyAuth username d with
  | error failure => rfl
  | ok _ =>
    dsimp only
    rw [session?_eq_some_iff.mpr hserves]
    rfl

theorem serves_doPost (hserves : d.Serves key pin salt) (r : PairingRequest) :
    (doPost C L S r d).2.Serves key pin salt := by
  rcases doPost_cases (C := C) (L := L) (S := S) r d with
    ⟨decrypted, -, -, -, hpost⟩ | ⟨answer, limiter, -, hpost, -⟩
  · rw [hpost]
    exact ⟨hserves.broker, hserves.key, hserves.pin, hserves.salt⟩
  · rw [hpost]
    exact ⟨hserves.broker, hserves.key, hserves.pin, hserves.salt⟩

theorem serves_run (e : PairingEvent Priv) (d : Device Priv) (hserves : d.Serves key pin salt) :
    ((PairingEvent.run C L S e) d).state.Serves key pin salt := by
  show (e.step C L S d).Serves key pin salt
  cases e with
  | pair username ip generated token salt' =>
    show (syncPair C username ip generated token salt' d).state.Serves key pin salt
    rwa [syncPair_state hserves]
  | runServer => exact ⟨rfl, hserves.key, hserves.pin, hserves.salt⟩
  | post r => exact serves_doPost hserves r

/-! ## What is accepted -/

theorem doPost_accepted_iff (hserves : d.Serves key pin salt) :
    (doPost C L S r d).1 = accepted ↔ (PairingEvent.post r).Valid C L S key pin salt d := by
  have hcarries : ∀ database, readPairing C L S r.body d = .ok database ↔
      Carries C L S key pin salt r.body database := fun _ => readPairing_eq_ok_iff hserves
  rcases doPost_cases (C := C) (L := L) (S := S) r d with
    ⟨decrypted, hread, hpath, hfree, hpost⟩ | ⟨answer, limiter, hanswer, hpost, hnot⟩
  · rw [hpost]
    exact iff_of_true rfl ⟨hpath, ⟨decrypted, (hcarries decrypted).mp hread⟩, hfree⟩
  · rw [hpost]
    refine iff_of_false hanswer ?_
    rintro ⟨hpath, ⟨database, hbody⟩, hfree⟩
    exact hnot ⟨hpath, hfree, database, (hcarries database).mpr hbody⟩

/-- A request that is refused leaves the files alone. -/
theorem database_doPost (h : (doPost C L S r d).1 ≠ accepted) :
    (doPost C L S r d).2.database = d.database := by
  rcases doPost_cases (C := C) (L := L) (S := S) r d with
    ⟨decrypted, -, -, -, hpost⟩ | ⟨answer, limiter, -, hpost, -⟩
  · rw [hpost] at h
    exact absurd rfl h
  · rw [hpost]
    rfl

/-- What was accepted is accepted again, at any time, when it comes from the same address. -/
theorem accepted_again (hserves : d.Serves key pin salt) (h : (doPost C L S r d).1 = accepted)
    (hpath : r'.path = r.path) (hbody : r'.body = r.body) (hclient : clientIpOf r' = clientIpOf r) :
    (doPost C L S r' (doPost C L S r d).2).1 = accepted := by
  rw [doPost_accepted_iff (serves_doPost hserves r)]
  obtain ⟨hpath', hcarries, -⟩ := (doPost_accepted_iff hserves).mp h
  refine ⟨hpath.trans hpath', hbody ▸ hcarries, ?_⟩
  -- the success has made the rate limiter forget the address
  rcases doPost_cases (C := C) (L := L) (S := S) r d with
    ⟨decrypted, -, -, -, hpost⟩ | ⟨answer, limiter, hanswer, hpost, -⟩
  · rw [hpost, hclient]
    exact PairingRateLimiter.isBlocked_recordSuccess _ _ _
  · rw [hpost] at h
    exact absurd h hanswer

/-- A request that is accepted can be replayed. -/
theorem not_notReplayed (hserves : d.Serves key pin salt) (h : (doPost C L S r d).1 = accepted) :
    ¬ NotReplayed C L S [.post r, .post r] d :=
  fun hsafe => (hsafe [] r [] r [] rfl h).1 (accepted_again hserves h rfl rfl rfl)

variable (C L S)

/-- A session is used at most once exactly when at most one valid request comes. -/
theorem notReplayed_iff (hserves : d.Serves key pin salt) (events : List (PairingEvent Priv)) :
    NotReplayed C L S events d ↔
      AtMostOne (PairingEvent.run C L S) (PairingEvent.Valid C L S key pin salt) events d := by
  have hstays : ∀ done, (after (PairingEvent.run C L S) done d).Serves key pin salt :=
    fun done => after_invariant serves_run hserves
  constructor
  · intro honce done e mid e' todo hevents hvalid hvalid'
    -- only requests are valid
    match e, e', hevents, hvalid, hvalid' with
    | .post r, .post r', hevents, hvalid, hvalid' =>
      refine (honce done r mid r' todo hevents ?_).1 ?_
      · exact (doPost_accepted_iff (hstays _)).mpr hvalid
      · exact (doPost_accepted_iff (hstays _)).mpr hvalid'
  · intro honce done r mid r' todo hevents haccepted
    have hrefused : (doPost C L S r' (after (PairingEvent.run C L S) (done ++ .post r :: mid) d)).1 ≠
        accepted := by
      rw [ne_eq, doPost_accepted_iff (hstays _)]
      refine honce done _ mid _ todo hevents ?_
      exact (doPost_accepted_iff (hstays _)).mp haccepted
    exact ⟨hrefused, database_doPost hrefused⟩

end

/-! ## A replay -/

/-- The token of the sample session. -/
def zeroToken : PairingToken := PairingToken.of (Bytes.replicate 32 0)

/-- What is pushed to the sample session with its token. -/
def pushedRequest : PairingRequest where
  path         := pairingPath
  peer         := "8.8.4.4"
  forwardedFor := ""
  body         := (sealDatabase sample sampleLibrary plainPairing (givenBody zeroToken.1) 1
    (Bytes.replicate 12 0) emptySqlite).toOption.map .obj
  arrived      := 1
  finished     := 2

theorem serves_pairedDevice :
    (runServer pairedDevice).Serves 2 zeroToken (Bytes.replicate 16 0) := ⟨rfl, rfl, rfl, rfl⟩

theorem pushedRequest_accepted :
    (doPost sample sampleLibrary plainPairing pushedRequest (runServer pairedDevice)).1 =
      accepted := by
  decide +kernel

theorem notReplayed_pushedRequest :
    (runServer pairedDevice).Serves 2 zeroToken (Bytes.replicate 16 0) ∧
    (NotReplayed sample sampleLibrary plainPairing [.runServer, .post pushedRequest]
        (runServer pairedDevice) ↔
      AtMostOne (PairingEvent.run sample sampleLibrary plainPairing)
        (PairingEvent.Valid sample sampleLibrary plainPairing 2 zeroToken (Bytes.replicate 16 0))
        [.runServer, .post pushedRequest] (runServer pairedDevice)) :=
  ⟨serves_pairedDevice,
    notReplayed_iff sample sampleLibrary plainPairing serves_pairedDevice _⟩

/-- A session is served, a database is pushed, and the same request comes again. -/
theorem replayed_push :
    (runServer pairedDevice).Serves 2 zeroToken (Bytes.replicate 16 0) ∧
    ¬ NotReplayed sample sampleLibrary plainPairing [.post pushedRequest, .post pushedRequest]
      (runServer pairedDevice) :=
  ⟨serves_pairedDevice, not_notReplayed serves_pairedDevice pushedRequest_accepted⟩

end AnonyMus.P2p.Pairing
