import AnonyMus.Lib.Lockstep
import AnonyMus.P2p.KeyCustody

/-!
# P2P node — the secrets in the database

What the encryption of `core/crypto.py` does to the endpoints of the Flask
server that store and show the shared secrets of the contacts: next to the node
runs one with the same requests whose database holds the secrets in clear.

* `Hidden`, `Shadow` — a row of the database and what it hides, and the two nodes;
* `Keyed` — the session holds the key of the database;
* `alike_run` — the step: a request has the same answer at both nodes;
* `secrets_at_rest` — the run: all requests have, and what lies in the
  database is the ciphertext of what would lie there in clear.
-/

namespace AnonyMus.P2p.LocalAccount

open EStateM
open Relay (strip)
open Legacy

/-! ## Hidden secrets -/

/-- A key as `login` derives it. -/
def keyText (key : Bytes 32) : String := String.ofList (toHex key.1)

/-- The nonce, and the ciphertext. -/
def sealedBytes (A : AccountLibrary) (key : Bytes 32) (nonce : Bytes 12) (plaintext : String) :
    List UInt8 :=
  nonce.1 ++ A.gcmEncrypt key.1 nonce.1 plaintext.toUTF8.toList

/-- What lies in the database for a secret. -/
inductive Hidden (A : AccountLibrary) (key : Bytes 32) : Option String → Option String → Prop
  | none : Hidden A key none none
  | empty : Hidden A key (some "") (some "")
  | sealed {plaintext} (nonce : Bytes 12) (hne : plaintext ≠ "") :
      Hidden A key (some (String.ofList (b64encode (sealedBytes A key nonce plaintext))))
        (some plaintext)

/-- The row in the database, and the row with the secret in clear. -/
def HiddenRow (A : AccountLibrary) (key : Bytes 32) (c c' : HandshakeContact) : Prop :=
  ∃ secret, c = { c' with sharedSecret := secret } ∧ Hidden A key secret c'.sharedSecret

/-- The tables, and the tables with every secret in clear. -/
structure ShadowTables (A : AccountLibrary) (key : Bytes 32) (n m : HandshakeNode) : Prop where
  contacts : Dict.Rel (HiddenRow A key) n.contacts m.contacts
  config   : n.config = m.config
  emitted  : n.emitted = m.emitted

/-- The node, and the node whose database hides nothing. -/
structure Shadow (A : AccountLibrary) (key : Bytes 32) (n m : AccountNode) : Prop where
  tables   : ShadowTables A key n.tables m.tables
  keyCache : n.keyCache = m.keyCache
  clock    : n.clock = m.clock
  log      : n.log = m.log

/-- A program of the peers that is the same whatever the secrets are. -/
abbrev BlindTables (A : AccountLibrary) (key : Bytes 32) {α : Type} (x : Handshaker α) : Prop :=
  Lockstep (ShadowTables A key) Eq x x

/-- The same for a program of the node. -/
abbrev Blind (A : AccountLibrary) (key : Bytes 32) {α : Type} (x : Accountant α) : Prop :=
  Lockstep (Shadow A key) Eq x x

section

variable {L : Library} {A : AccountLibrary} {key : Bytes 32}

theorem keyText_ne_empty (key : Bytes 32) : keyText key ≠ "" := by
  intro h
  have hnil : toHex key.1 = [] := by
    rw [← String.toList_ofList (l := toHex key.1), show String.ofList (toHex key.1) = "" from h]
    rfl
  have hkey : key.1 = [] := toHex_eq_nil_iff.mp hnil
  have hlength := key.2
  rw [hkey] at hlength
  cases hlength

theorem truthy_keyText : truthy (some (keyText key)) = some (keyText key) :=
  truthy_of_ne (keyText_ne_empty key)

/-- The nonce alone has twelve bytes. -/
theorem length_sealedBytes (nonce : Bytes 12) (plaintext : String) :
    12 ≤ (sealedBytes A key nonce plaintext).length := by
  rw [sealedBytes, List.length_append, nonce.2]
  exact Nat.le_add_right ..

/-- What lies there is not the empty text: the nonce comes first. -/
theorem sealedText_ne_empty (nonce : Bytes 12) (plaintext : String) :
    String.ofList (b64encode (sealedBytes A key nonce plaintext)) ≠ "" := by
  intro h
  have hdecode := a2bBase64_b64encode (sealedBytes A key nonce plaintext) []
  have hnil : b64encode (sealedBytes A key nonce plaintext) = [] := by
    rw [← String.toList_ofList (l := b64encode _), h]
    rfl
  rw [hnil] at hdecode
  -- no text decodes to no bytes, but the nonce is there
  have hempty : sealedBytes A key nonce plaintext = [] := by simpa [a2bBase64] using hdecode
  have hlength : 12 ≤ (sealedBytes A key nonce plaintext).length :=
    length_sealedBytes nonce plaintext
  rw [hempty] at hlength
  cases hlength

/-- What was sealed under a key opens under it. -/
theorem decrypt_sealedBytes (hdoc : A.Documented) (nonce : Bytes 12) (plaintext : String) :
    (Cipher.aesGcm A).decrypt (String.ofList (b64encode (sealedBytes A key nonce plaintext)))
      (keyText key) = .ok plaintext := by
  have htake : (sealedBytes A key nonce plaintext).take 12 = nonce.1 := List.take_left' nonce.2
  have hdrop : (sealedBytes A key nonce plaintext).drop 12 =
      A.gcmEncrypt key.1 nonce.1 plaintext.toUTF8.toList := List.drop_left' nonce.2
  rw [Cipher.aesGcm]
  dsimp only
  rw [if_neg (sealedText_ne_empty _ _), if_neg (keyText_ne_empty key), String.toList_ofList,
    a2bBase64_b64encode, List.reverse_nil, List.nil_append]
  dsimp only
  rw [if_neg (not_lt.mpr (length_sealedBytes nonce plaintext)), keyText, String.toList_ofList,
    fromHex_toHex]
  dsimp only
  rw [htake, hdrop, hdoc.opens, Option.bind_some, Utf8.read?_toUTF8]

/-- The ciphertext of a secret is the secret when it is read. -/
theorem Hidden.opens {secret shown : Option String} (h : Hidden A key secret shown)
    (hdoc : A.Documented) :
    openSecret (Cipher.aesGcm A) secret (some (keyText key)) = .ok shown := by
  rw [openSecret, truthy_keyText]
  cases h with
  | none => rfl
  | empty => rfl
  | @sealed plaintext nonce hne =>
    rw [truthy_of_ne (sealedText_ne_empty _ _)]
    dsimp only
    rw [decrypt_sealedBytes hdoc]
    rfl

/-- In clear, what lies there is the secret. -/
theorem openSecret_clear (secret dbKey : Option String) :
    openSecret Cipher.clear secret dbKey = .ok secret := by
  unfold openSecret
  cases secret with
  | none => rfl
  | some text =>
    by_cases htext : text = ""
    · subst htext
      rfl
    · rw [truthy_of_ne htext]
      cases truthy dbKey with
      | none => rfl
      | some dbKey => rfl

theorem sealSecret_clear (secret dbKey : Option String) (nonce : Bytes 12) :
    sealSecret Cipher.clear secret dbKey nonce = .ok secret :=
  openSecret_clear secret dbKey

/-- What is stored for a secret hides it. -/
theorem hidden_sealSecret (secret : Option String) (nonce : Bytes 12) :
    ∃ stored, sealSecret (Cipher.aesGcm A) secret (some (keyText key)) nonce = .ok stored ∧
      Hidden A key stored secret := by
  rw [sealSecret, truthy_keyText]
  cases secret with
  | none => exact ⟨_, rfl, .none⟩
  | some plaintext =>
    by_cases hne : plaintext = ""
    · subst hne
      exact ⟨_, rfl, .empty⟩
    · rw [truthy_of_ne hne]
      refine ⟨_, ?_, .sealed nonce hne⟩
      show ((Cipher.aesGcm A).encrypt plaintext (keyText key) nonce).map some = _
      rw [Cipher.aesGcm]
      dsimp only
      rw [if_neg hne, if_neg (keyText_ne_empty key), keyText, String.toList_ofList, fromHex_toHex]
      rfl

/-! ## The tables -/

/-- Without a secret there is nothing to hide. -/
theorem HiddenRow.of_none {c : HandshakeContact} (h : c.sharedSecret = none) :
    HiddenRow A key c c :=
  ⟨none, by rw [← h], by rw [h]; exact .none⟩

/-- An update of the other columns. -/
theorem HiddenRow.update {c c' : HandshakeContact} (h : HiddenRow A key c c')
    (f : HandshakeContact → HandshakeContact)
    (hf : ∀ c secret, f { c with sharedSecret := secret } = { f c with sharedSecret := secret })
    (hsecret : ∀ c, (f c).sharedSecret = c.sharedSecret) : HiddenRow A key (f c) (f c') := by
  obtain ⟨secret, rfl, hhidden⟩ := h
  exact ⟨secret, hf c' secret, by rw [hsecret]; exact hhidden⟩

namespace ShadowTables

variable {n m : HandshakeNode}

/-- An update of a row, on both sides. -/
theorem update (h : ShadowTables A key n m) (onion : String)
    {f g : HandshakeContact → HandshakeContact}
    (hfg : ∀ c c', HiddenRow A key c c' → HiddenRow A key (f c) (g c')) :
    ShadowTables A key (n.update L onion f) (m.update L onion g) := by
  unfold HandshakeNode.update
  dsimp only
  rcases h.contacts.get? (normalized L onion) with ⟨hn, hm⟩ | ⟨c, c', hn, hm, hrow⟩
  · rw [hn, hm]
    exact ⟨h.contacts, h.config, h.emitted⟩
  · rw [hn, hm]
    exact ⟨h.contacts.insert _ (hfg c c' hrow), h.config, h.emitted⟩

/-- A new contact has no secret yet. -/
theorem addContact (h : ShadowTables A key n m) (onion : String) {c : HandshakeContact}
    (hnone : c.sharedSecret = none) :
    ShadowTables A key (n.addContact L onion c) (m.addContact L onion c) := by
  unfold HandshakeNode.addContact
  dsimp only
  rcases h.contacts.get? (normalized L onion) with ⟨hn, hm⟩ | ⟨c, c', hn, hm, hrow⟩
  · rw [hn, hm]
    exact ⟨h.contacts.insert _ (.of_none hnone), h.config, h.emitted⟩
  · rw [hn, hm]
    exact ⟨h.contacts, h.config, h.emitted⟩

/-- One side gets the ciphertext, the other the secret. -/
theorem updateContactSecret (h : ShadowTables A key n m) (onion : String)
    {secret shown : Option String} (hhidden : Hidden A key secret shown)
    (peerPublicKey : Option String) :
    ShadowTables A key (n.updateContactSecret L onion secret peerPublicKey)
      (m.updateContactSecret L onion shown peerPublicKey) := by
  refine h.update onion ?_
  rintro c c' ⟨_, rfl, -⟩
  exact ⟨secret, rfl, hhidden⟩

/-- The node is known under the same addresses. -/
theorem knownOnions_eq (h : ShadowTables A key n m) : n.knownOnions L = m.knownOnions L := by
  have hrows : (n.contacts.entries.filter fun e => e.2.profileId = "default").filterMap
      (fun e => truthy e.2.myOnionAddress) =
      (m.contacts.entries.filter fun e => e.2.profileId = "default").filterMap
        (fun e => truthy e.2.myOnionAddress) := by
    have hcontacts := h.contacts
    unfold Dict.Rel at hcontacts
    generalize n.contacts.entries = es, m.contacts.entries = es' at hcontacts
    induction hcontacts with
    | nil => rfl
    | @cons e e' rest rest' he hrest ih =>
      obtain ⟨-, secret, hrow, -⟩ := he
      simp only [List.filter_cons, hrow]
      split_ifs
      · simp only [List.filterMap_cons, hrow, ih]
      · exact ih
  unfold HandshakeNode.knownOnions
  rw [hrows, h.config]

theorem isKnownHost_eq (h : ShadowTables A key n m) (host : String) :
    n.isKnownHost L host = m.isKnownHost L host := by
  unfold HandshakeNode.isKnownHost
  rw [h.knownOnions_eq]

/-- The same contacts are blocked. -/
theorem isBlocked_eq (h : ShadowTables A key n m) (onion : String) :
    n.isBlocked L onion = m.isBlocked L onion := by
  unfold HandshakeNode.isBlocked
  rcases h.contacts.get? (normalized L onion) with ⟨hn, hm⟩ | ⟨_, c, hn, hm, _, rfl, -⟩
  · rw [hn, hm]
  · rw [hn, hm]

end ShadowTables

/-! ## The requests of peers -/

theorem blind_preferRelay (onion : String) (data : Body) :
    BlindTables A key (preferRelay L onion data) := by
  refine Lockstep.check fun relay => Lockstep.ite ?_ (Lockstep.pure rfl)
  refine Lockstep.modify fun n m h => h.update onion fun c c' hrow => ?_
  exact hrow.update (fun c => { c with preferredFileRelay := some (strip relay) })
    (fun _ _ => rfl) fun _ => rfl

theorem blind_emit (notice : HandshakeNotice) :
    BlindTables A key (modify (HandshakeNode.emit notice)) :=
  Lockstep.modify fun n m h => ⟨h.contacts, h.config, by
    rw [HandshakeNode.emit, HandshakeNode.emit, h.emitted]⟩

/-- A handshake asks for addresses and statuses only. -/
theorem blind_p2pHandshake (data : Body) (host displayName : String) :
    BlindTables A key (Legacy.p2pHandshake L data host displayName) := by
  refine Lockstep.get fun n m h => ?_
  -- the checks read addresses, profiles and statuses
  have hcheck : checkHandshake L data host n = checkHandshake L data host m := by
    unfold checkHandshake
    rw [h.isKnownHost_eq]
    simp only [h.isBlocked_eq]
  rw [hcheck]
  refine Lockstep.check (fun request => ?_) n m h
  refine (Lockstep.modify fun n m h => h.addContact _ rfl).andThen fun _ => ?_
  refine (Lockstep.modify fun n m h => h.updateContactSecret _ .none _).andThen fun _ => ?_
  refine (Lockstep.modify fun n m h => ?_).andThen fun _ =>
    (blind_preferRelay _ _).andThen fun _ => (blind_emit _).andThen fun _ => Lockstep.pure rfl
  exact h.update _ fun c c' hrow =>
    hrow.update (fun c => { c with status := "pending_incoming" }) (fun _ _ => rfl) fun _ => rfl

/-- An acceptance asks whether the contact is there. -/
theorem blind_p2pAccept (data : Body) : BlindTables A key (Legacy.p2pAccept L data) := by
  refine Lockstep.check fun read => Lockstep.get fun n m h => ?_
  -- both tables have the contact, or neither has
  have hthere : (n.contacts.get? (normalized L read.1)).isNone =
      (m.contacts.get? (normalized L read.1)).isNone := by
    rcases h.contacts.get? (normalized L read.1) with ⟨hn, hm⟩ | ⟨c, c', hn, hm, -⟩
    · rw [hn, hm]
    · rw [hn, hm]
      rfl
  dsimp only
  rw [hthere]
  split_ifs
  · exact .error h
  · refine Lockstep.get (fun n m h => ?_) n m h
    rw [h.config]
    exact (blind_preferRelay _ _).andThen (fun _ => (blind_emit _).andThen fun _ =>
      Lockstep.pure rfl) n m h

theorem blind_handshake (e : HandshakeEvent) : BlindTables A key (e.run L) := by
  refine (Lockstep.modify fun n m h => ⟨h.contacts, h.config, h.emitted⟩).andThen fun _ => ?_
  cases e with
  | p2pHandshake data host displayName => exact blind_p2pHandshake data host displayName
  | p2pAccept data => exact blind_p2pAccept data

/-- No request of a peer reads a secret. -/
theorem blind_handlePeer (e : HandshakeEvent) : Blind A key (handlePeer L e) := by
  intro n m h
  -- the handlers of the peers run on the tables alone
  have htables := blind_handshake (L := L) e n.tables m.tables h.tables
  unfold handlePeer
  revert htables
  cases e.run L n.tables with
  | ok text tables =>
    cases e.run L m.tables with
    | ok text' tables' =>
      rintro (⟨rfl, htables⟩ | -)
      exact .ok rfl ⟨htables, h.keyCache, h.clock, h.log⟩
    | error failure tables' => rintro ⟨⟩
  | error failure tables =>
    cases e.run L m.tables with
    | ok text' tables' => rintro ⟨⟩
    | error failure' tables' =>
      rintro (- | htables)
      exact .error ⟨htables, h.keyCache, h.clock, h.log⟩

/-! ## The credentials -/

theorem blind_getConfig (configKey : String) : Blind A key (getConfig configKey) :=
  fun n m h => .ok (by rw [h.tables.config]) h

theorem blind_setConfig (configKey value : String) : Blind A key (setConfig configKey value) :=
  Lockstep.modify fun n m h =>
    ⟨⟨h.tables.contacts, by rw [h.tables.config], h.tables.emitted⟩, h.keyCache, h.clock, h.log⟩

theorem blind_wait (d : ℚ) : Blind A key (wait d) :=
  Lockstep.modify fun n m h => ⟨h.tables, h.keyCache, by rw [h.clock], h.log⟩

theorem blind_note (e : AccountEntry) : Blind A key (note e) :=
  Lockstep.modify fun n m h => ⟨h.tables, h.keyCache, h.clock, by rw [h.log]⟩

/-- A program that needs nothing of the node but the time. -/
theorem blind_clock {α : Type} {f : AccountNode → Accountant α}
    (hf : ∀ n m : AccountNode, n.clock = m.clock → f n = f m)
    (h : ∀ n, Blind A key (f n)) :
    Blind A key (get >>= f) :=
  Lockstep.get fun n m hnm => by
    rw [hf n m hnm.clock]
    exact h m n m hnm

theorem blind_isInitialized : Blind A key isInitialized :=
  (blind_getConfig _).andThen fun _ => Lockstep.pure rfl

theorem blind_registerLocalUser (username password salt dbKeySalt : String) :
    Blind A key (registerLocalUser L A username password salt dbKeySalt) := by
  refine blind_isInitialized.andThen fun initialized => ?_
  refine Lockstep.ite (Lockstep.pure rfl) (Lockstep.ite (Lockstep.pure rfl)
    (Lockstep.ite (Lockstep.pure rfl) (Lockstep.ite (Lockstep.throw _) ?_)))
  refine (blind_getConfig _).andThen fun name => (blind_getConfig _).andThen fun salt => ?_
  refine Lockstep.ite (Lockstep.pure rfl) ?_
  exact (blind_setConfig _ _).andThen fun _ => (blind_setConfig _ _).andThen fun _ =>
    (blind_setConfig _ _).andThen fun _ => Lockstep.pure rfl

theorem blind_registerFailedAttempt : Blind A key (registerFailedAttempt A) := by
  refine (blind_getConfig _).andThen fun attempts => (blind_setConfig _ _).andThen fun _ => ?_
  refine blind_clock (fun n m h => by rw [h]) fun _ => (blind_note _).andThen fun _ =>
    Lockstep.ite ?_ (Lockstep.pure rfl)
  exact blind_clock (fun n m h => by rw [h]) fun _ => blind_setConfig _ _

theorem blind_lockedFor : Blind A key (lockedFor A) := by
  refine (blind_getConfig _).andThen fun text => ?_
  split
  · exact Lockstep.pure rfl
  · split
    · exact Lockstep.pure rfl
    · exact blind_clock (fun n m h => by rw [h]) fun _ => Lockstep.pure rfl

theorem blind_wrongCredentials (d : ℚ) : Blind A key (wrongCredentials A d) :=
  (blind_wait d).andThen fun _ => blind_registerFailedAttempt.andThen fun _ =>
    Lockstep.pure rfl

theorem blind_rightCredentials (d : ℚ) : Blind A key (rightCredentials d) :=
  (blind_wait d).andThen fun _ => (blind_setConfig _ _).andThen fun _ =>
    (blind_setConfig _ _).andThen fun _ => blind_clock (fun n m h => by rw [h]) fun _ =>
    (blind_note _).andThen fun _ => Lockstep.pure rfl

/-- A guess is compared with the hash in `config`. -/
theorem blind_tryPassword (username password dummyHash : String) (d : ℚ) :
    Blind A key (tryPassword L A username password dummyHash d) := by
  refine (blind_getConfig _).andThen fun hash => (blind_getConfig _).andThen fun name => ?_
  split
  · refine Lockstep.ite ?_ ?_
    · exact Lockstep.check fun _ => blind_wrongCredentials d
    · refine Lockstep.check fun valid => Lockstep.ite ?_ ?_
      · exact blind_rightCredentials d
      · exact blind_wrongCredentials d
  · exact Lockstep.pure rfl

theorem blind_loginLocalUser (username password dummyHash : String) (d : ℚ) :
    Blind A key (loginLocalUser L A username password dummyHash d) := by
  refine blind_isInitialized.andThen fun initialized => Lockstep.ite (Lockstep.pure rfl) ?_
  refine blind_lockedFor.andThen fun remaining => ?_
  cases remaining with
  | none => exact blind_tryPassword _ _ _ _
  | some remaining => exact Lockstep.ite (Lockstep.pure rfl) (blind_tryPassword _ _ _ _)

theorem blind_cacheDbKey (dbKeyHex dbKeyId : String) :
    Blind A key (cacheDbKey dbKeyHex dbKeyId) := by
  refine (Lockstep.modify fun n m h => ?_).andThen fun _ => Lockstep.pure rfl
  exact ⟨h.tables, by rw [h.keyCache, h.clock], h.clock, h.log⟩

theorem blind_register (data : Body) (salt dbKeySalt : String) :
    Blind A key (register L A data salt dbKeySalt) :=
  Lockstep.check fun _ => Lockstep.check fun _ => Lockstep.check fun _ =>
    Lockstep.ite (Lockstep.throw _) (blind_registerLocalUser _ _ _ _)

/-- The key comes from the password and the salt in `config`. -/
theorem blind_login (session : Session) (data : Body) (chance : LoginChance) :
    Blind A key (login L A session data chance) := by
  refine Lockstep.check fun _ => Lockstep.check fun username => Lockstep.check fun password =>
    (blind_loginLocalUser _ _ _ _).andThen fun r => ?_
  cases r with
  | error e => exact Lockstep.pure rfl
  | ok _ =>
    refine Lockstep.get fun n m h => ?_
    rw [h.tables.config]
    refine (Lockstep.check fun dbKeyHex => ?_) n m h
    exact (blind_wait _).andThen fun _ => (blind_cacheDbKey _ _).andThen fun _ =>
      blind_clock (fun n m h => by rw [h]) fun _ =>
        (blind_note _).andThen fun _ => Lockstep.pure rfl

theorem blind_logout (session : Session) : Blind A key (logout session) := by
  unfold logout
  cases truthy session.dbKeyId with
  | none => exact Lockstep.pure rfl
  | some dbKeyId =>
    refine (Lockstep.modify fun n m h => ?_).andThen fun _ => (blind_note _).andThen fun _ =>
      Lockstep.pure rfl
    exact ⟨h.tables, by rw [h.keyCache], h.clock, h.log⟩

theorem blind_restart : Blind A key restart :=
  (Lockstep.modify fun _ _ h => ⟨h.tables, rfl, h.clock, h.log⟩).andThen fun _ => blind_note _

/-! ## The contacts -/

theorem blind_addContact (session : Session) (data : Body) (displayName : String) :
    Blind A key (addContact L session data displayName) := by
  refine Lockstep.check fun _ => Lockstep.check fun _ => Lockstep.check fun onion =>
    Lockstep.check fun nickname => Lockstep.check fun nickname =>
    Lockstep.check fun myPublicKey => ?_
  refine Lockstep.ite (Lockstep.throw _) ?_
  dsimp only
  split
  · exact Lockstep.throw _
  · refine (blind_getConfig _).andThen fun myOnion => (Lockstep.modify fun n m h => ?_).andThen
      fun _ => blind_setConfig _ _
    exact ⟨h.tables.addContact _ rfl, h.keyCache, h.clock, h.log⟩

theorem blind_deleteContact (session : Session) (data : Body) :
    Blind A key (deleteContact L session data) :=
  Lockstep.check fun _ => Lockstep.check fun _ =>
    Lockstep.check fun _ => Lockstep.check fun _ =>
    Lockstep.modify fun _ _ h => ⟨⟨h.tables.contacts.erase _, h.tables.config, h.tables.emitted⟩,
      h.keyCache, h.clock, h.log⟩

theorem blind_resetData (session : Session) (data : Body) :
    Blind A key (resetData session data) := by
  refine Lockstep.check fun _ => ?_
  split
  · exact Lockstep.modify fun _ _ h =>
      ⟨⟨.empty, h.tables.config, h.tables.emitted⟩, h.keyCache, h.clock, h.log⟩
  · exact Lockstep.throw _

/-! ## The endpoints with a key -/

/-- The session holds the key. -/
def Holds (key : Bytes 32) (session : Session) (n : AccountNode) : Prop :=
  (truthy session.dbKeyId).bind (liveAt n.clock n.keyCache) = some (keyText key)

/-- A node and its shadow, and the key for the session if it is one. -/
def KeyedShadow (A : AccountLibrary) (key : Bytes 32) (session : Session) (n m : AccountNode) :
    Prop :=
  Shadow A key n m ∧ (session.username.isSome → Holds key session n)

/-- The first program does with the ciphertexts what the second does with the secrets. -/
abbrev Transparent (A : AccountLibrary) (key : Bytes 32) (session : Session) {α : Type}
    (x y : Accountant α) : Prop :=
  Lockstep (KeyedShadow A key session) Eq x y

variable {session : Session}

/-- The lookup finds the key, and drops nothing. -/
theorem getDbKeyHex_of_holds {n : AccountNode} (h : Holds key session n) :
    getDbKeyHex session n = .ok (some (keyText key)) n := by
  unfold Holds at h
  unfold getDbKeyHex
  obtain ⟨dbKeyId, hid, hlive⟩ := Option.bind_eq_some_iff.mp h
  rw [hid]
  dsimp only
  rw [lookUpDbKey_apply]
  -- what is live has not expired, so the entry stays
  obtain ⟨e, hfilter, hkey⟩ := Option.map_eq_some_iff.mp hlive
  obtain ⟨hget, hlt⟩ := Option.filter_eq_some_iff.mp hfilter
  rw [hget]
  dsimp only
  rw [if_pos (by simpa using hlt), hkey]

/-- Both nodes have the same keys in memory. -/
theorem Shadow.holds {n m : AccountNode} (h : Shadow A key n m) (hkey : Holds key session n) :
    Holds key session m := by
  unfold Holds at hkey ⊢
  rw [← h.clock, ← h.keyCache]
  exact hkey

/-- Without a login both refuse. -/
theorem lockstep_requireLogin {α : Type} {f g : Unit → Accountant α}
    (h : session.username.isSome →
      Transparent A key session (f ⟨⟩) (g ⟨⟩)) :
    Transparent A key session (ofExcept (requireLogin session) >>= f)
      (ofExcept (requireLogin session) >>= g) := by
  unfold requireLogin
  by_cases hlogin : session.username.isSome
  · rw [if_pos hlogin]
    exact h hlogin
  · rw [if_neg hlogin]
    exact fun n m hnm => .error hnm

/-- Both lookups find the key. -/
theorem lockstep_getDbKeyHex {α : Type} {f g : Option String → Accountant α}
    (hlogin : session.username.isSome)
    (h : Transparent A key session (f (some (keyText key)))
      (g (some (keyText key)))) :
    Transparent A key session (getDbKeyHex session >>= f)
      (getDbKeyHex session >>= g) := by
  intro n m hnm
  have hholds := hnm.2 hlogin
  rw [apply_bind, apply_bind, getDbKeyHex_of_holds hholds,
    getDbKeyHex_of_holds (hnm.1.holds hholds)]
  exact h n m hnm

/-- The rows that are shown are the ones in clear. -/
theorem contactRows_eq (hdoc : A.Documented) {n m : HandshakeNode} (h : ShadowTables A key n m)
    (profileId : String) :
    contactRows (Cipher.aesGcm A) profileId (some (keyText key)) n =
      contactRows Cipher.clear profileId (some (keyText key)) m := by
  unfold contactRows
  rw [h.config]
  have hcontacts := h.contacts
  unfold Dict.Rel at hcontacts
  generalize n.contacts.entries = es, m.contacts.entries = es' at hcontacts
  -- row by row, as the rows stand in the same order
  induction hcontacts with
  | nil => rfl
  | @cons e e' rest rest' he hrest ih =>
    obtain ⟨hpeer, secret, hrow, hhidden⟩ := he
    simp only [List.filter_cons, hrow]
    split_ifs
    · rw [List.mapM_cons, List.mapM_cons, ih, hpeer]
      dsimp only
      rw [hrow]
      dsimp only
      rw [hhidden.opens hdoc, openSecret_clear]
    · exact ih

theorem lockstep_contacts (hdoc : A.Documented) :
    Transparent A key session (contacts (Cipher.aesGcm A) session)
      (contacts Cipher.clear session) := by
  refine lockstep_requireLogin fun hlogin =>
    lockstep_getDbKeyHex hlogin (Lockstep.get fun n m h => ?_)
  rw [contactRows_eq hdoc h.1.tables]
  exact Lockstep.ofExcept _ n m h

/-- What is read of a contact is in clear. -/
theorem lockstep_getContact (hdoc : A.Documented) (onion : String) :
    Transparent A key session (getContact L (Cipher.aesGcm A) onion (some (keyText key)))
      (getContact L Cipher.clear onion (some (keyText key))) := by
  refine Lockstep.get fun n m h => ?_
  rcases h.1.tables.contacts.get? (normalized L onion) with
    ⟨hn, hm⟩ | ⟨_, c, hn, hm, secret, rfl, hhidden⟩
  · rw [hn, hm]
    exact .ok rfl h
  · rw [hn, hm]
    dsimp only
    rw [hhidden.opens hdoc, openSecret_clear]
    exact .ok rfl h

/-- What one seals, the other stores as it is. -/
theorem lockstep_updateContactSecret (onion : String) (secret peerPublicKey : Option String)
    (nonce : Bytes 12) : Transparent A key session
      (updateContactSecret L (Cipher.aesGcm A) onion secret peerPublicKey (some (keyText key))
        nonce)
      (updateContactSecret L Cipher.clear onion secret peerPublicKey (some (keyText key))
        nonce) := by
  obtain ⟨stored, hstored, hhidden⟩ := @hidden_sealSecret A key secret nonce
  intro n m h
  unfold updateContactSecret
  rw [hstored, sealSecret_clear]
  refine .ok rfl ⟨⟨?_, h.1.keyCache, h.1.clock, h.1.log⟩, h.2⟩
  exact h.1.tables.updateContactSecret onion hhidden peerPublicKey

theorem lockstep_acceptContact (hdoc : A.Documented) (data : Body) (nonce : Bytes 12) :
    Transparent A key session (acceptContact L (Cipher.aesGcm A) session data nonce)
      (acceptContact L Cipher.clear session data nonce) := by
  refine Lockstep.check fun _ => lockstep_requireLogin fun hlogin =>
    Lockstep.check fun _ => Lockstep.check fun onion =>
    Lockstep.check fun sharedSecret => lockstep_getDbKeyHex hlogin ?_
  refine (lockstep_getContact hdoc onion).andThen fun contact => ?_
  cases contact with
  | none => exact Lockstep.throw _
  | some contact => exact lockstep_updateContactSecret _ _ _ _

theorem lockstep_saveSecret (data : Body) (nonce : Bytes 12) :
    Transparent A key session (saveSecret L (Cipher.aesGcm A) session data nonce)
      (saveSecret L Cipher.clear session data nonce) :=
  Lockstep.check fun _ => lockstep_requireLogin fun hlogin =>
    Lockstep.check fun _ => Lockstep.check fun _ =>
    Lockstep.check fun _ => Lockstep.check fun _ =>
    lockstep_getDbKeyHex hlogin (lockstep_updateContactSecret _ _ _ _)

/-! ## Runs -/

/-- A session that reads or writes secrets holds the key. -/
def Keyed (key : Bytes 32) : AccountEvent → AccountNode → Prop
  | .contacts session, n => session.username.isSome → Holds key session n
  | .acceptContact session _ _, n => session.username.isSome → Holds key session n
  | .saveSecret session _ _, n => session.username.isSome → Holds key session n
  | _, _ => True

/-- A request has the same answer at both nodes. -/
theorem alike_run (hdoc : A.Documented) (e : AccountEvent) {n m : AccountNode}
    (h : Shadow A key n m) (hkeyed : Keyed key e n) :
    (e.run L A (Cipher.aesGcm A) n).Alike (Shadow A key) Eq (e.run L A Cipher.clear m) := by
  have hanswer : ∀ {α : Type} {x y : Accountant α} (f : α → AccountAnswer),
      (x n).Alike (Shadow A key) Eq (y m) →
      ((x >>= fun a => pure (f a)) n).Alike (Shadow A key) Eq
        ((y >>= fun a => pure (f a)) m) := by
    intro α x y f hxy
    exact hxy.bind fun a b hab => Lockstep.pure (congrArg f hab)
  -- where secrets are read or written, the session keeps the key
  have hsecret : ∀ {α : Type} {x y : Accountant α} {session : Session},
      Transparent A key session x y →
      (session.username.isSome → Holds key session n) → (x n).Alike (Shadow A key) Eq (y m) :=
    fun hxy hholds => (hxy n m ⟨h, hholds⟩).mono fun _ _ hnm => hnm.1
  cases e with
  | tick d => exact hanswer (fun _ => .done) (blind_wait d n m h)
  | restart => exact hanswer (fun _ => .done) (blind_restart n m h)
  | register data salt dbKeySalt =>
    exact hanswer .result (blind_register data salt dbKeySalt n m h)
  | login session data chance =>
    exact hanswer (fun r => .session r.1 r.2) (blind_login session data chance n m h)
  | logout session => exact hanswer (.session (.ok ⟨⟩)) (blind_logout session n m h)
  | contacts session => exact hanswer .contacts (hsecret (lockstep_contacts hdoc) hkeyed)
  | addContact session data displayName =>
    exact hanswer (fun _ => .done) (blind_addContact session data displayName n m h)
  | acceptContact session data nonce =>
    exact hanswer (fun _ => .done) (hsecret (lockstep_acceptContact hdoc data nonce) hkeyed)
  | saveSecret session data nonce =>
    exact hanswer (fun _ => .done) (hsecret (lockstep_saveSecret data nonce) hkeyed)
  | deleteContact session data =>
    exact hanswer (fun _ => .done) (blind_deleteContact session data n m h)
  | resetData session data => exact hanswer (fun _ => .done) (blind_resetData session data n m h)
  | peer e => exact hanswer .status (blind_handlePeer e n m h)

/-- No secrets, no difference. -/
theorem shadow_new : Shadow A key AccountNode.new AccountNode.new :=
  ⟨⟨.empty, rfl, rfl⟩, rfl, rfl, rfl⟩

/-- **Secrets at rest.** In every run of requests in which the sessions that read or write secrets
hold the key: every answer is the one of a node that stores the secrets in clear; and the tables
are those of that node, but for the secrets, in whose place their ciphertexts lie. -/
theorem secrets_at_rest (hdoc : A.Documented) (σ : List AccountEvent)
    (hkeyed : AllMeet (AccountEvent.run L A (Cipher.aesGcm A)) (Keyed key) σ AccountNode.new) :
    (∀ done e todo, σ = done ++ e :: todo →
      (e.run L A (Cipher.aesGcm A)
        (runEvents L A (Cipher.aesGcm A) done AccountNode.new)).toExcept =
      (e.run L A Cipher.clear (runEvents L A Cipher.clear done AccountNode.new)).toExcept) ∧
    Shadow A key (runEvents L A (Cipher.aesGcm A) σ AccountNode.new)
      (runEvents L A Cipher.clear σ AccountNode.new) := by
  obtain ⟨hshadow, hanswers⟩ := answers_eq
    (fun e n m hnm hk => alike_run (L := L) hdoc e hnm hk) shadow_new hkeyed
  exact ⟨hanswers, hshadow⟩

end

instance (key : Bytes 32) (session : Session) (n : AccountNode) :
    Decidable (Holds key session n) :=
  inferInstanceAs (Decidable (_ = _))

/-- The session of the login. -/
def aliceSession : Session := ⟨some "alice", some "id", some "default"⟩

def zeroKey : Bytes 32 := Bytes.replicate 32 0

/-- A secret is agreed with Carol, and shown. -/
def sampleRequests : List AccountEvent :=
  [.register [("username", .str "alice"), ("password", .str "passphrase")] "" "00",
    sampleGuess "passphrase",
    .addContact aliceSession [("onion_address", .str carolOnion), ("nickname", .str "carol"),
      ("my_public_key", .str "mykey")] "00112233",
    .saveSecret aliceSession [("onion_address", .str carolOnion), ("shared_secret", .str "secret"),
      ("peer_public_key", .str "key")] (Bytes.replicate 12 0),
    .contacts aliceSession]

/-- The secrets of an answer. -/
def AccountAnswer.secrets : AccountAnswer → List (Option String)
  | .contacts rows => rows.map (·.2.2.sharedSecret)
  | _ => []

theorem sampleRequests_keyed :
    AllMeet (AccountEvent.run sampleLibrary sampleAccounts (Cipher.aesGcm sampleAccounts))
      (Keyed zeroKey) sampleRequests AccountNode.new :=
  ⟨trivial, trivial, trivial, fun _ => by decide +kernel, fun _ => by decide +kernel, trivial⟩

/-- The secret is shown, and lies behind its nonce in the database. -/
theorem secrets_at_rest_sample :
    ((AccountEvent.contacts aliceSession).run sampleLibrary sampleAccounts
        (Cipher.aesGcm sampleAccounts) (runEvents sampleLibrary sampleAccounts
          (Cipher.aesGcm sampleAccounts) (sampleRequests.take 4)
          AccountNode.new)).toExcept.toOption.map AccountAnswer.secrets = some [some "secret"] ∧
    ((runEvents sampleLibrary sampleAccounts (Cipher.aesGcm sampleAccounts) sampleRequests
        AccountNode.new).tables.contacts.get? carolOnion).map (·.sharedSecret) =
      some (some "AAAAAAAAAAAAAAAAc2VjcmV0") := by
  constructor
  · rw [(secrets_at_rest sampleAccounts_documented sampleRequests sampleRequests_keyed).1
      (sampleRequests.take 4) (.contacts aliceSession) [] rfl]
    decide +kernel
  · decide +kernel

end AnonyMus.P2p.LocalAccount
