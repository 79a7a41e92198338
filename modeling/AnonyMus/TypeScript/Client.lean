import AnonyMus.Lib.Forgiving
import AnonyMus.Lib.JsonText
import AnonyMus.Lib.Percent
import AnonyMus.TypeScript.Session

/-!
# TypeScript SDK — the client

`packages/typescript-sdk/src/client.ts`: one client, its keys and queues, and
the session with its peer. What the socket emits and what the listeners get is
returned; in every method it is the last thing that happens.

* `Browser`, `Browser.Documented` — what the client takes from its platform;
* `getInviteLink`, `acceptInvite`, `sendMessage`, `handleQueuePayload` — the methods;
* `acceptInvite_link` — a link is understood by `acceptInvite`;
* `Shows.sendMessage`, `Shows.handleMessage` — a text out and a text in, over a
  session that stands for a party of the abstract ratchet.
-/

namespace AnonyMus.TypeScript

open Json (write parse?)

/-! ## The platform -/

structure Browser (Priv : Type) where
  subtle    : Subtle Priv
  numerals  : Json.Numerals
  /-- What `TextDecoder` makes of bytes that are no text. -/
  malformed : List UInt8 → String

/-- What the documentation of these functions says. -/
structure Browser.Documented {Priv : Type} (B : Browser Priv) : Prop where
  /-- Genuine X25519 keys agree on a secret. -/
  agrees : ∀ x y, ∃ z, B.subtle.deriveBits x (B.subtle.publicKey y) = some z ∧
    B.subtle.deriveBits y (B.subtle.publicKey x) = some z
  opens : ∀ key iv plaintext,
    B.subtle.gcmDecrypt key iv (B.subtle.gcmEncrypt key iv plaintext) = some plaintext
  integers : ∀ n : ℤ, n.natAbs ≤ 2 ^ 53 →
    B.numerals.value (toString n).toList = some (.int n)

/-- `toBase64`. -/
def toBase64 (bytes : List UInt8) : String := String.ofList (b64encode bytes)

/-- `fromBase64`, of text. -/
def fromBase64 (base64String : Option String) : Except SdkError (List UInt8) :=
  match base64String.bind fun text => forgivingDecode text.toList with
  | some bytes => .ok bytes
  | none => .error .invalidCharacter

theorem fromBase64_toBase64 (bytes : List UInt8) :
    fromBase64 (some (toBase64 bytes)) = .ok bytes := by
  rw [fromBase64, Option.bind_some, toBase64, String.toList_ofList, forgivingDecode_b64encode]

/-- A text that counts as true. -/
def truthy (text : Option String) : Bool := text.any (· ≠ "")

/-! ## JSON -/

/-- `value.key`, which throws only for `null`; `undefined` is none. -/
def member (value : Json) (key : String) : Except SdkError (Option Json) :=
  match value with
  | .null => .error .typeError
  | .obj members => .ok (members.lookup key)
  | _ => .ok none

def textOf : Option Json → Option String
  | some (.str s) => some s
  | _ => none

/-- A member that is compared with counters. What is no number compares with
every counter like a negative number. -/
def countOf : Option Json → ℤ
  | some (.int n) => n
  | _ => -1

/-! ## The client -/

structure Client (Priv : Type) where
  serverUrl              : String
  /-- There is a socket. -/
  connected              : Bool
  myKeys                 : Option Priv
  myPublicKeyExported    : Option String
  myQueueId              : Option String
  theirQueueId           : Option String
  theirPublicKeyExported : Option String
  ratchet                : Option (DoubleRatchetSession Priv)

/-- What the socket emits. -/
inductive Emit
  | registerPeer (myQueue peerQueue : Option String)
  | pushQueue (queueId : Option String) (payload : List Char)
deriving DecidableEq

/-- What the handler of a payload ends with. -/
inductive Reaction
  | nothing
  | registered (emit : Emit)
  | message (msgObj : Json)

section

variable {Priv : Type} (B : Browser Priv)

/-- `connect`, with the key pair that is generated. -/
def connect (serverUrl : String) (myKeys : Priv) : Client Priv where
  serverUrl := serverUrl
  connected := true
  myKeys := some myKeys
  myPublicKeyExported := some (toBase64 (B.subtle.publicKey myKeys).1)
  myQueueId := none
  theirQueueId := none
  theirPublicKeyExported := none
  ratchet := none

/-- `createQueue`, once the relay has answered. -/
def queueCreated (queueId : String) (c : Client Priv) : Client Priv :=
  { c with myQueueId := some queueId }

/-- The object in the hash of an invite link. -/
def inviteObj (queueId publicKey : String) : Json :=
  .obj [("q", .str queueId), ("k", .str publicKey)]

/-- The link to a queue and a key. -/
def inviteLink (serverUrl queueId publicKey : String) : List Char :=
  serverUrl.toList ++ '/' :: '#' ::
    Percent.encodeComponent (write B.numerals (inviteObj queueId publicKey))

def getInviteLink (c : Client Priv) : Except SdkError (List Char) :=
  match c.myQueueId, c.myPublicKeyExported with
  | some queueId, some publicKey =>
    if truthy (some queueId) && truthy (some publicKey) then
      .ok (inviteLink B c.serverUrl queueId publicKey)
    else .error (.error "Queue not created yet")
  | _, _ => .error (.error "Queue not created yet")

/-- `a < b` of two strings. -/
def lessThan (a b : String) : Bool := a.toList < b.toList

/-- The session with the peer whose key is known, in the role that the keys
decide: `acceptInvite` and the handler of a handshake make it alike. -/
def establish (myKeys generated : Priv) : EStateM SdkError (Client Priv) Unit := do
  let c ← get
  let theirKeyBytes ← ofExcept (fromBase64 c.theirPublicKeyExported)
  let theirKey ← ofExcept (importRaw theirKeyBytes)
  let sharedSecret ← ofExcept (computeDH B.subtle myKeys theirKey)
  match c.myPublicKeyExported, c.theirPublicKeyExported with
  | some mine, some theirs =>
    if lessThan mine theirs then
      let ratchet ← ofExcept (initAlice B.subtle sharedSecret.1 theirKeyBytes generated)
      modify fun c => { c with ratchet := some ratchet }
    else
      modify fun c => { c with ratchet := some (initBob sharedSecret.1 myKeys) }
  | _, _ => throw .typeError

def handshakePayload (replyQueue publicKey : Option String) : Json :=
  .obj [("type", .str "handshake"), ("reply_queue", (replyQueue.map Json.str).getD .null),
    ("public_key", (publicKey.map Json.str).getD .null)]

/-- The text after the first number sign. -/
def hashOf (inviteUrl : List Char) : Option (List Char) :=
  match inviteUrl.dropWhile (· ≠ '#') with
  | [] => none
  | _ :: rest => some rest

def acceptInvite (inviteUrl : List Char) (generated : Priv) :
    EStateM SdkError (Client Priv) (List Emit) := do
  let c ← get
  if !c.connected then
    throw (.error "Client not connected")
  match c.myKeys with
  | none => throw (.error "Client keys not generated")
  | some myKeys =>
    match hashOf inviteUrl with
    | none => throw (.error "Invalid invite URL")
    | some hash =>
      match Percent.decodeComponent hash with
      | none => throw .uriError
      | some hashStr =>
        match parse? B.numerals hashStr.toList with
        | none => throw .syntaxError
        | some inviteData =>
          let q ← ofExcept (member inviteData "q")
          modify fun c => { c with theirQueueId := textOf q }
          let k ← ofExcept (member inviteData "k")
          modify fun c => { c with theirPublicKeyExported := textOf k }
          establish B myKeys generated
          let c ← get
          return [.registerPeer c.myQueueId c.theirQueueId,
            .pushQueue c.theirQueueId (write B.numerals
              (handshakePayload c.myQueueId c.myPublicKeyExported))]

/-- A call on the session of the client. -/
def onRatchet {α : Type} (ratchet : DoubleRatchetSession Priv)
    (call : EStateM SdkError (DoubleRatchetSession Priv) α) : EStateM SdkError (Client Priv) α :=
  fun c => match call ratchet with
    | .ok a ratchet' => .ok a { c with ratchet := some ratchet' }
    | .error e ratchet' => .error e { c with ratchet := some ratchet' }

/-- The object that listeners get. -/
def textMessage (text : String) (timestamp : ℕ) : Json :=
  .obj [("type", .str "text"), ("content", .str text), ("timestamp", .int timestamp)]

/-- The bytes that `TextEncoder` makes of the text of a value. -/
def encodeJson (value : Json) : List UInt8 :=
  (String.ofList (write B.numerals value)).toUTF8.toList

def outerPayload (iv ciphertext dhPub : List UInt8) (seq prevChainLen : ℕ) : Json :=
  .obj [("type", .str "message"), ("iv", .str (toBase64 iv)),
    ("ciphertext", .str (toBase64 ciphertext)), ("dh_pub", .str (toBase64 dhPub)),
    ("seq", .int seq), ("prev_chain_len", .int prevChainLen)]

/-- `sendMessage`; `iv` is random and `now` is what `Date.now()` returns. -/
def sendMessage (text : String) (iv : Bytes 12) (now : ℕ) :
    EStateM SdkError (Client Priv) Emit := do
  let c ← get
  match c.ratchet with
  | none => throw (.error "Session not established. Complete handshake first.")
  | some ratchet =>
    if !c.connected || !truthy c.theirQueueId then
      throw (.error "Session not established. Complete handshake first.")
    let (messageKey, myPubBytes, seq, prevChainLen) ← onRatchet ratchet (encrypt B.subtle)
    let ciphertext := B.subtle.gcmEncrypt messageKey.1 iv.1 (encodeJson B (textMessage text now))
    return .pushQueue c.theirQueueId
      (write B.numerals (outerPayload iv.1 ciphertext myPubBytes.1 seq prevChainLen))

/-- `decryptAESGCM`. -/
def decryptAESGCM (key : List UInt8) (iv ciphertext : Option String) :
    Except SdkError String := do
  -- the lengths of an AES key
  if key.length ≠ 16 ∧ key.length ≠ 24 ∧ key.length ≠ 32 then
    throw .dataError
  let iv ← fromBase64 iv
  let ciphertext ← fromBase64 ciphertext
  match B.subtle.gcmDecrypt key iv ciphertext with
  | some decrypted => return Utf8.textDecode B.malformed decrypted
  | none => throw .operationError

/-- The branch of `handleQueuePayload` for a handshake. -/
def handleHandshake (payload : Json) (generated : Priv) :
    EStateM SdkError (Client Priv) Reaction := do
  let replyQueue ← ofExcept (member payload "reply_queue")
  modify fun c => { c with theirQueueId := textOf replyQueue }
  let publicKey ← ofExcept (member payload "public_key")
  modify fun c => { c with theirPublicKeyExported := textOf publicKey }
  match (← get).myKeys with
  | none => return .nothing
  | some myKeys =>
    establish B myKeys generated
    let c ← get
    return .registered (.registerPeer c.myQueueId c.theirQueueId)

/-- Its branch for a message. -/
def handleMessage (payload : Json) (generated : Priv) :
    EStateM SdkError (Client Priv) Reaction := do
  match (← get).ratchet with
  | none => return .nothing
  | some ratchet =>
    let dhPub ← ofExcept (member payload "dh_pub")
    let peerDhPubBytes ← ofExcept (fromBase64 (textOf dhPub))
    let seq ← ofExcept (member payload "seq")
    let prevChainLen ← ofExcept (member payload "prev_chain_len")
    let messageKey ← onRatchet ratchet
      (decrypt B.subtle peerDhPubBytes (countOf seq) (countOf prevChainLen) generated)
    let iv ← ofExcept (member payload "iv")
    let ciphertext ← ofExcept (member payload "ciphertext")
    let decryptedText ← ofExcept (decryptAESGCM B messageKey (textOf iv) (textOf ciphertext))
    match parse? B.numerals decryptedText.toList with
    | some msgObj => return .message msgObj
    | none => throw .syntaxError

/-- `handleQueuePayload`, whose errors are logged and go no further. -/
def handleQueuePayload (payloadStr : List Char) (generated : Priv) :
    EStateM SdkError (Client Priv) Reaction := do
  match parse? B.numerals payloadStr with
  | none => throw .syntaxError
  | some payload =>
    let type ← ofExcept (member payload "type")
    if textOf type = some "handshake" then
      handleHandshake B payload generated
    else if textOf type = some "message" then
      handleMessage B payload generated
    else
      return .nothing

/-! ## What is written is read -/

variable {B} {c : Client Priv}

theorem Browser.Documented.legible_nat (hdoc : B.Documented) {n : ℕ} (hn : n ≤ 2 ^ 53) :
    Json.Legible B.numerals (.int n) := by
  rw [Json.Legible]
  exact Json.literal_int _ (hdoc.integers n hn)

theorem Browser.Documented.parse_outerPayload (hdoc : B.Documented) {seq prevChainLen : ℕ}
    (hseq : seq ≤ 2 ^ 53) (hprev : prevChainLen ≤ 2 ^ 53) (iv ciphertext dhPub : List UInt8) :
    parse? B.numerals (write B.numerals (outerPayload iv ciphertext dhPub seq prevChainLen)) =
      some (outerPayload iv ciphertext dhPub seq prevChainLen) := by
  apply Json.parse?_write
  have hnodup : ["type", "iv", "ciphertext", "dh_pub", "seq", "prev_chain_len"].Nodup := by decide
  rw [outerPayload, Json.Legible]
  refine ⟨hnodup, ?_⟩
  simp only [Json.LegibleMembers, Json.Legible.eq_5, true_and, and_true]
  exact ⟨hdoc.legible_nat hseq, hdoc.legible_nat hprev⟩

theorem Browser.Documented.parse_textMessage (hdoc : B.Documented) {now : ℕ} (hnow : now ≤ 2 ^ 53)
    (text : String) :
    parse? B.numerals (write B.numerals (textMessage text now)) = some (textMessage text now) := by
  apply Json.parse?_write
  have hnodup : ["type", "content", "timestamp"].Nodup := by decide
  rw [textMessage, Json.Legible]
  refine ⟨hnodup, ?_⟩
  simp only [Json.LegibleMembers, Json.Legible.eq_5, true_and, and_true]
  exact hdoc.legible_nat hnow

theorem parse_handshakePayload (queueId publicKey : String) :
    parse? B.numerals
        (write B.numerals (handshakePayload (some queueId) (some publicKey))) =
      some (handshakePayload (some queueId) (some publicKey)) := by
  apply Json.parse?_write
  have hnodup : ["type", "reply_queue", "public_key"].Nodup := by decide
  rw [handshakePayload, Json.Legible]
  refine ⟨hnodup, ?_⟩
  simp only [Option.map_some, Option.getD_some, Json.LegibleMembers, Json.Legible.eq_5, and_self]

theorem parse_inviteObj (queueId publicKey : String) :
    parse? B.numerals (write B.numerals (inviteObj queueId publicKey)) =
      some (inviteObj queueId publicKey) := by
  apply Json.parse?_write
  have hnodup : ["q", "k"].Nodup := by decide
  rw [inviteObj, Json.Legible]
  refine ⟨hnodup, ?_⟩
  simp only [Json.LegibleMembers, Json.Legible.eq_5, and_self]

/-- The text of an object is no text with a byte order mark. -/
theorem textDecode_encodeJson {members : List (String × Json)} (hne : members ≠ []) :
    Utf8.textDecode B.malformed (encodeJson B (.obj members)) =
      String.ofList (write B.numerals (.obj members)) := by
  cases members with
  | nil => exact absurd rfl hne
  | cons m members =>
    apply Utf8.textDecode_of_unmarked
    rw [String.toList_ofList, write, List.head?_cons, ne_eq, Option.some.injEq]
    decide

theorem decryptAESGCM_encrypted (hdoc : B.Documented) (key : Bytes 32) (iv : List UInt8)
    {members : List (String × Json)} (hne : members ≠ []) :
    decryptAESGCM B key.1 (some (toBase64 iv))
        (some (toBase64 (B.subtle.gcmEncrypt key.1 iv (encodeJson B (.obj members))))) =
      .ok (String.ofList (write B.numerals (.obj members))) := by
  have hlength : ¬ (key.1.length ≠ 16 ∧ key.1.length ≠ 24 ∧ key.1.length ≠ 32) :=
    fun h => h.2.2 key.2
  rw [decryptAESGCM, if_neg hlength]
  simp only [fromBase64_toBase64, bind, Except.bind, pure, Except.pure, hdoc.opens]
  rw [textDecode_encodeJson hne]

/-! ## A text out and a text in -/

/-- The text of the payload for a message. -/
def messageText (B : Browser Priv) (key : Bytes 32) (hd : Ratchet.Header (Bytes 32))
    (iv : Bytes 12) (msgObj : Json) : List Char :=
  write B.numerals (outerPayload iv.1 (B.subtle.gcmEncrypt key.1 iv.1 (encodeJson B msgObj))
    hd.dh.1 hd.n hd.pn)

theorem sendMessage_of_none (h : c.ratchet = none) (text : String) (iv : Bytes 12) (now : ℕ) :
    sendMessage B text iv now c =
      .error (.error "Session not established. Complete handshake first.") c := by
  rw [sendMessage, EStateM.apply_bind, EStateM.apply_get]
  dsimp only
  rw [h]
  rfl

/-- Until it has a sending chain, a client cannot send. -/
theorem sendMessage_of_waiting {s : DoubleRatchetSession Priv} (hs : c.ratchet = some s)
    (hchain : s.sendingChainKey = none) (text : String) (iv : Bytes 12) (now : ℕ) :
    ∃ e, sendMessage B text iv now c = .error e c := by
  rw [sendMessage, EStateM.apply_bind, EStateM.apply_get]
  dsimp only
  rw [hs]
  dsimp only
  split
  · exact ⟨_, rfl⟩
  · have hsame : { c with ratchet := some s } = c := by rw [← hs]
    rw [EStateM.apply_bind, onRatchet, encrypt_of_none B.subtle hchain]
    exact ⟨_, congrArg (EStateM.Result.error _) hsame⟩

variable {s : DoubleRatchetSession Priv} {p : SdkParty Priv}

theorem Shows.sendMessage (h : Shows B.subtle s p) (hs : c.ratchet = some s)
    (hconnected : c.connected = true) (hqueue : truthy c.theirQueueId = true)
    (hseq : s.seqSend < 2 ^ 53) (hchain : s.sendingChainKey ≠ none) (text : String)
    (iv : Bytes 12) (now : ℕ) :
    ∃ key hd p' s', p.send B.subtle.kdf = some (key, hd, p') ∧
      sendMessage B text iv now c =
        .ok (.pushQueue c.theirQueueId (messageText B key hd iv (textMessage text now)))
          { c with ratchet := some s' } ∧ Shows B.subtle s' p' := by
  obtain ⟨key, hd, p', s', hsend, henc, hs'⟩ := h.encrypt hseq hchain
  refine ⟨key, hd, p', s', hsend, ?_, hs'⟩
  rw [TypeScript.sendMessage, EStateM.apply_bind, EStateM.apply_get]
  dsimp only
  rw [hs]
  dsimp only
  have hready : (!c.connected || !truthy c.theirQueueId) = false := by
    rw [hconnected, hqueue]
    rfl
  rw [hready, if_neg Bool.false_ne_true, EStateM.apply_bind, onRatchet, henc]
  rfl

/-- The handler of a payload, once its text is read. -/
theorem handleQueuePayload_of_parse {payloadStr : List Char} {members : List (String × Json)}
    (hparse : parse? B.numerals payloadStr = some (.obj members)) (generated : Priv) :
    handleQueuePayload B payloadStr generated c =
      (if textOf (members.lookup "type") = some "handshake" then
        handleHandshake B (.obj members) generated
      else if textOf (members.lookup "type") = some "message" then
        handleMessage B (.obj members) generated
      else return .nothing) c := by
  rw [handleQueuePayload, hparse]
  rfl

theorem handleMessage_of_none (h : c.ratchet = none) (payload : Json) (generated : Priv) :
    handleMessage B payload generated c = .ok .nothing c := by
  rw [handleMessage, EStateM.apply_bind, EStateM.apply_get]
  dsimp only
  rw [h]
  rfl

theorem handleQueuePayload_messageText (hdoc : B.Documented) {hd : Ratchet.Header (Bytes 32)}
    (hn : hd.n ≤ 2 ^ 53) (hpn : hd.pn ≤ 2 ^ 53) (key : Bytes 32) (iv : Bytes 12) (msgObj : Json)
    (generated : Priv) :
    handleQueuePayload B (messageText B key hd iv msgObj) generated c =
      handleMessage B (outerPayload iv.1
        (B.subtle.gcmEncrypt key.1 iv.1 (encodeJson B msgObj)) hd.dh.1 hd.n hd.pn) generated c := by
  have hparse := hdoc.parse_outerPayload hn hpn iv.1
    (B.subtle.gcmEncrypt key.1 iv.1 (encodeJson B msgObj)) hd.dh.1
  rw [messageText, handleQueuePayload_of_parse hparse]
  rfl

theorem member_outerPayload (iv ciphertext dhPub : List UInt8) (seq prevChainLen : ℕ) :
    member (outerPayload iv ciphertext dhPub seq prevChainLen) "dh_pub" =
        .ok (some (.str (toBase64 dhPub))) ∧
      member (outerPayload iv ciphertext dhPub seq prevChainLen) "seq" =
        .ok (some (.int seq)) ∧
      member (outerPayload iv ciphertext dhPub seq prevChainLen) "prev_chain_len" =
        .ok (some (.int prevChainLen)) ∧
      member (outerPayload iv ciphertext dhPub seq prevChainLen) "iv" =
        .ok (some (.str (toBase64 iv))) ∧
      member (outerPayload iv ciphertext dhPub seq prevChainLen) "ciphertext" =
        .ok (some (.str (toBase64 ciphertext))) :=
  ⟨rfl, rfl, rfl, rfl, rfl⟩

/-- A payload that is handled gives the listeners the object of its message. -/
theorem Shows.handleMessage (h : Shows B.subtle s p) (hpaired : Paired p) (hdoc : B.Documented)
    (hs : c.ratchet = some s) {hd : Ratchet.Header (Bytes 32)} {generated : Priv}
    {key : Bytes 32} {p' : SdkParty Priv} (hn : hd.n < 2 ^ 53) (hpn : hd.pn ≤ 2 ^ 53)
    (hnr : p'.nr ≤ 2 ^ 53) (hwithin : WithinSkip s hd)
    (hexchange : ¬ Stored s hd → s.dhRemotePublicKey ≠ some hd.dh → ∃ z z',
      B.subtle.deriveBits p.self hd.dh = some z ∧ B.subtle.deriveBits generated hd.dh = some z')
    (hrecv : p.recv B.subtle.kdf hd generated = (some key, p')) {now : ℕ} (hnow : now ≤ 2 ^ 53)
    (text : String) (iv : Bytes 12) :
    ∃ s', handleQueuePayload B (messageText B key hd iv (textMessage text now)) generated c =
        .ok (.message (textMessage text now)) { c with ratchet := some s' } ∧
      Shows B.subtle s' p' := by
  obtain ⟨s', hdec, hs'⟩ := h.decrypt hpaired hpn hn hnr hwithin hexchange hrecv
  refine ⟨s', ?_, hs'⟩
  have hne : [("type", Json.str "text"), ("content", .str text), ("timestamp", .int now)] ≠ [] :=
    List.cons_ne_nil _ _
  have hopen := decryptAESGCM_encrypted hdoc key iv.1 hne
  rw [handleQueuePayload_messageText hdoc (Nat.le_of_lt hn) hpn, TypeScript.handleMessage,
    EStateM.apply_bind, EStateM.apply_get]
  dsimp only
  rw [hs]
  dsimp only
  obtain ⟨hdh, hseq, hprev, hivs, hct⟩ := member_outerPayload iv.1
    (B.subtle.gcmEncrypt key.1 iv.1 (encodeJson B (textMessage text now))) hd.dh.1 hd.n hd.pn
  rw [hdh]
  simp only [EStateM.apply_bind, EStateM.apply_ofExcept_ok, textOf, fromBase64_toBase64]
  rw [hseq, hprev, hivs, hct]
  simp only [EStateM.apply_ofExcept_ok, countOf, onRatchet, hdec]
  rw [textMessage, hopen]
  simp only [EStateM.apply_ofExcept_ok, String.toList_ofList]
  have hparse := hdoc.parse_textMessage hnow text
  rw [textMessage] at hparse
  rw [hparse]
  rfl

/-! ## Becoming peers -/

/-- The public key of a key pair as text. -/
def exported (B : Browser Priv) (x : Priv) : String := toBase64 (B.subtle.publicKey x).1

theorem truthy_exported (x : Priv) : truthy (some (exported B x)) = true := by
  have hne : exported B x ≠ "" := by
    intro h
    have htext := congrArg String.toList h
    rw [exported, toBase64, String.toList_ofList] at htext
    have hlength := (B.subtle.publicKey x).2
    rw [b64encode_eq_nil_iff.mp htext] at hlength
    cases hlength
  exact decide_eq_true hne

/-- The client once it knows the queue and the key of its peer. -/
def introduced (c : Client Priv) (peerQueue peerKey : String) : Client Priv :=
  { c with theirQueueId := some peerQueue, theirPublicKeyExported := some peerKey }

/-- The client once it has a session with its peer. -/
def joined (c : Client Priv) (peerQueue peerKey : String)
    (session : DoubleRatchetSession Priv) : Client Priv :=
  { introduced c peerQueue peerKey with ratchet := some session }

/-- The party that opens the conversation if its key comes first, and waits otherwise. -/
def roleParty (B : Browser Priv) (x y generated : Priv) (secret : Bytes 32) : SdkParty Priv :=
  if lessThan (exported B x) (exported B y) then
    Ratchet.Party.initSender B.subtle.kdf secret.1 generated (B.subtle.publicKey y)
  else Ratchet.Party.initReceiver secret.1 x

theorem establish_shows (hdoc : B.Documented) (generated : Priv) {x y : Priv} {z : Bytes 32}
    (hmine : c.myPublicKeyExported = some (exported B x))
    (htheirs : c.theirPublicKeyExported = some (exported B y))
    (hz : B.subtle.deriveBits x (B.subtle.publicKey y) = some z) :
    ∃ s, establish B x generated c = .ok ⟨⟩ { c with ratchet := some s } ∧
      Shows B.subtle s (roleParty B x y generated z) := by
  have hsecret : computeDH B.subtle x (B.subtle.publicKey y) = .ok z := by rw [computeDH, hz]
  have hrun : establish B x generated c = (if lessThan (exported B x) (exported B y) then do
        let ratchet ← ofExcept (initAlice B.subtle z.1 (B.subtle.publicKey y).1 generated)
        modify fun c => { c with ratchet := some ratchet }
      else
        modify fun c => { c with ratchet := some (initBob z.1 x) } :
      EStateM SdkError (Client Priv) Unit) c := by
    rw [establish, EStateM.apply_bind, EStateM.apply_get]
    dsimp only
    rw [hmine, htheirs]
    dsimp only
    rw [exported, exported, EStateM.apply_bind, fromBase64_toBase64, EStateM.apply_ofExcept_ok]
    dsimp only
    rw [EStateM.apply_bind, importRaw_eq, EStateM.apply_ofExcept_ok]
    dsimp only
    rw [EStateM.apply_bind, hsecret, EStateM.apply_ofExcept_ok]
  rw [hrun, roleParty]
  split
  · obtain ⟨z', hz', -⟩ := hdoc.agrees generated y
    obtain ⟨s, hs, hshows⟩ := initAlice_shows B.subtle z.1 hz'
    refine ⟨s, ?_, hshows⟩
    rw [hs]
    rfl
  · exact ⟨_, rfl, initBob_shows B.subtle z.1 x⟩

/-- The hash of a link begins after the first number sign. -/
theorem hashOf_append {url : List Char} (hplain : '#' ∉ url) (hash : List Char) :
    hashOf (url ++ '/' :: '#' :: hash) = some hash := by
  have hdrop : (url ++ '/' :: '#' :: hash).dropWhile (· ≠ '#') = '#' :: hash := by
    have hpass : ∀ c ∈ url, decide (c ≠ '#') = true := by
      intro c hc
      refine decide_eq_true ?_
      rintro rfl
      exact hplain hc
    rw [List.dropWhile_append_of_pos hpass]
    rfl
  rw [hashOf, hdrop]

/-- A client that has its queue, before it knows its peer. -/
structure Ready (B : Browser Priv) (c : Client Priv) (x : Priv) (queueId : String) : Prop where
  connected : c.connected = true
  keys      : c.myKeys = some x
  exported  : c.myPublicKeyExported = some (exported B x)
  queue     : c.myQueueId = some queueId
  named     : truthy (some queueId) = true

/-- **Invitation.** The link of one client makes another the peer of the first, if the
server's address has no number sign; it registers both queues and sends its handshake. -/
theorem acceptInvite_link (hdoc : B.Documented) (generated : Priv) {i c : Client Priv} {x y : Priv}
    {z : Bytes 32} {theirs mine : String} (hi : Ready B i y theirs) (hc : Ready B c x mine)
    (hplain : '#' ∉ i.serverUrl.toList)
    (hz : B.subtle.deriveBits x (B.subtle.publicKey y) = some z) :
    ∃ s, getInviteLink B i = .ok (inviteLink B i.serverUrl theirs (exported B y)) ∧
      acceptInvite B (inviteLink B i.serverUrl theirs (exported B y)) generated c =
        .ok [.registerPeer (some mine) (some theirs), .pushQueue (some theirs)
            (write B.numerals (handshakePayload (some mine) (some (exported B x))))]
          (joined c theirs (exported B y) s) ∧
      Shows B.subtle s (roleParty B x y generated z) := by
  obtain ⟨s, hs, hshows⟩ := establish_shows hdoc generated
    (c := introduced c theirs (exported B y)) hc.exported rfl hz
  refine ⟨s, ?_, ?_, hshows⟩
  · rw [getInviteLink, hi.queue, hi.exported]
    dsimp only
    rw [hi.named, truthy_exported, Bool.and_self, if_pos rfl]
  · have hdecode : Percent.decodeComponent (Percent.encodeComponent
        (write B.numerals (inviteObj theirs (exported B y)))) =
        some (String.ofList (write B.numerals (inviteObj theirs (exported B y)))) := by
      have h := Percent.decodeComponent_encodeComponent
        (String.ofList (write B.numerals (inviteObj theirs (exported B y))))
      rwa [String.toList_ofList] at h
    rw [acceptInvite, EStateM.apply_bind, EStateM.apply_get]
    dsimp only
    rw [hc.connected, hc.keys]
    dsimp only
    rw [Bool.not_true, if_neg Bool.false_ne_true, inviteLink, hashOf_append hplain]
    dsimp only
    rw [hdecode]
    dsimp only
    rw [String.toList_ofList, parse_inviteObj]
    dsimp only
    rw [show member (inviteObj theirs (exported B y)) "q" = .ok (some (.str theirs)) from rfl,
      show member (inviteObj theirs (exported B y)) "k" =
        .ok (some (.str (exported B y))) from rfl]
    simp only [EStateM.apply_bind, EStateM.apply_ofExcept_ok, EStateM.apply_modify, textOf]
    rw [introduced] at hs
    rw [hs]
    simp only [EStateM.apply_get, EStateM.apply_pure, hc.queue, hc.exported, joined, introduced]

/-- A handshake makes its receiver the peer of its sender. -/
theorem handleQueuePayload_handshake (hdoc : B.Documented) (generated : Priv) (theirs : String)
    {x y : Priv} {z : Bytes 32} {mine : String} (hc : Ready B c x mine)
    (hz : B.subtle.deriveBits x (B.subtle.publicKey y) = some z) :
    ∃ s, handleQueuePayload B
        (write B.numerals (handshakePayload (some theirs) (some (exported B y)))) generated c =
        .ok (.registered (.registerPeer (some mine) (some theirs)))
          (joined c theirs (exported B y) s) ∧
      Shows B.subtle s (roleParty B x y generated z) := by
  obtain ⟨s, hs, hshows⟩ := establish_shows hdoc generated
    (c := introduced c theirs (exported B y)) hc.exported rfl hz
  refine ⟨s, ?_, hshows⟩
  rw [handleQueuePayload_of_parse (parse_handshakePayload theirs (exported B y))]
  show handleHandshake B (handshakePayload (some theirs) (some (exported B y))) generated c = _
  rw [handleHandshake, show member (handshakePayload (some theirs) (some (exported B y)))
      "reply_queue" = .ok (some (.str theirs)) from rfl,
    show member (handshakePayload (some theirs) (some (exported B y))) "public_key" =
      .ok (some (.str (exported B y))) from rfl]
  simp only [EStateM.apply_bind, EStateM.apply_ofExcept_ok, EStateM.apply_modify, textOf,
    EStateM.apply_get, hc.keys]
  rw [introduced, hc.keys] at hs
  rw [hs]
  simp only [EStateM.apply_pure, hc.queue, hc.keys, joined, introduced]

end

end AnonyMus.TypeScript
