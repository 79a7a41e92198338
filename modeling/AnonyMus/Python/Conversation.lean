import Mathlib.Data.List.Infix
import Mathlib.Logic.Function.Basic
import AnonyMus.Lib.Simulation
import AnonyMus.Python.Sdk

/-!
# Python core — conversations through the SDK

A message is sealed under the key of its step of the chain, with the role of
whoever seals it as associated data: `me`. The receiver opens it as `peer`, and
the history opens it with a key that it finds by walking on from the current
chain key.

* `decryptMessage_encryptMessage`, `decryptMessage_of_key` — what opens a message;
* `conversation_iff` — two clients hear each other exactly when nothing is
  delivered, although they have the same keys;
* `history_readable_iff` — the history can be read exactly as far as the chain
  repeats the keys it has left behind.
-/

namespace AnonyMus.Python

open EStateM

/-- What the documentation of `cryptography` and of `int` says: AES-GCM opens what it sealed, and
raises `InvalidTag` under another key or other associated data. -/
structure Library.Documented (L : Library) : Prop where
  int    : ∀ i, L.int (.int i) = .ok i
  opens  : ∀ {key : Bytes 32} {nonce : Bytes 12} {data aad sealed},
    L.aesgcmEncrypt key.1 nonce.1 data aad = .ok sealed →
      L.aesgcmDecrypt key.1 nonce.1 sealed aad = .ok data
  tagged : ∀ {key key' : Bytes 32} {nonce sealed aad aad' data},
    L.aesgcmDecrypt key.1 nonce sealed aad = .ok data → ¬ (key' = key ∧ aad' = aad) →
      L.aesgcmDecrypt key'.1 nonce sealed aad' = .error .invalidTag

/-! ## One message -/

section

variable {L : Library} {key key' : Bytes 32} {text role sessionId : String} {seq : ℤ}
  {iv : Bytes 12} {urandom : (n : ℕ) → Bytes n} {payload : Encrypted} {ivB64 ctB64 : Value}

theorem packU32_eq_ok {x : ℤ} {data : List UInt8} (h : packU32 x = .ok data) :
    0 ≤ x ∧ x < 2 ^ 32 ∧ data = be32 (UInt32.ofNat x.toNat) := by
  unfold packU32 at h
  split_ifs at h with hrange
  exact ⟨hrange.1, hrange.2, (Except.ok.inj h).symm⟩

/-- Padded text carries its length in front. -/
theorem padPlaintext_eq_ok {data : List UInt8} (h : padPlaintext text urandom = .ok data) :
    ∃ noise, data = be32 (UInt32.ofNat text.toUTF8.toList.length) ++ text.toUTF8.toList ++ noise ∧
      text.toUTF8.toList.length < 2 ^ 32 := by
  unfold padPlaintext at h
  obtain ⟨header, hpack, h⟩ := except_bind_eq_ok_iff.mp h
  obtain ⟨-, hlt, rfl⟩ := packU32_eq_ok hpack
  exact ⟨_, (Except.ok.inj h).symm, by omega⟩

/-- What the end of `decrypt_message` makes of padded text. -/
theorem unpad_padPlaintext {data : List UInt8} (h : padPlaintext text urandom = .ok data) :
    unpackU32 (data.take 4) = .ok text.toUTF8.toList.length ∧
      text.toUTF8.toList.length + 4 ≤ data.length ∧
      (data.drop 4).take text.toUTF8.toList.length = text.toUTF8.toList := by
  obtain ⟨noise, rfl, hlt⟩ := padPlaintext_eq_ok h
  rw [List.append_assoc]
  have hheader : (be32 (UInt32.ofNat text.toUTF8.toList.length)).length = 4 := length_be32 _
  refine ⟨?_, ?_, ?_⟩
  · rw [List.take_left' hheader, unpackU32, if_pos hheader, ofBe32_be32,
      UInt32.toNat_ofNat', Nat.mod_eq_of_lt hlt]
  · simp only [List.length_append, hheader]
    omega
  · rw [List.drop_left' hheader, List.take_left' rfl]

/-- The associated data of a role. -/
theorem constructAad_eq_ok {aad : List UInt8} (h : constructAad L role seq sessionId 2 = .ok aad) :
    0 ≤ seq ∧ ∃ rest, aad = role.toUTF8.toList.take 1 ++ rest := by
  unfold constructAad at h
  rw [if_neg (by decide)] at h
  obtain ⟨number, hpack, h⟩ := except_bind_eq_ok_iff.mp h
  obtain ⟨version, -, h⟩ := except_bind_eq_ok_iff.mp h
  refine ⟨(packU32_eq_ok hpack).1,
    number ++ ((L.sha256 sessionId.toUTF8.toList).1.take 16 ++ version), ?_⟩
  rw [← Except.ok.inj h, List.append_assoc, List.append_assoc]

/-- What is sealed as `me` is not what is opened as `peer`. -/
theorem aad_ne {seq' : ℤ} {sessionId' : String} {aad aad' : List UInt8}
    (h : constructAad L "me" seq sessionId 2 = .ok aad)
    (h' : constructAad L "peer" seq' sessionId' 2 = .ok aad') : aad' ≠ aad := by
  obtain ⟨-, rest, rfl⟩ := constructAad_eq_ok h
  obtain ⟨-, rest', rfl⟩ := constructAad_eq_ok h'
  have hme : "me".toUTF8.toList.take 1 = [109] := by decide +kernel
  have hpeer : "peer".toUTF8.toList.take 1 = [112] := by decide +kernel
  rw [hme, hpeer]
  intro hsame
  exact absurd (List.cons.inj hsame).1 (by decide)

theorem encryptMessage_eq_ok (h : encryptMessage L key text role seq sessionId iv urandom = .ok payload) :
    ∃ padded aad ciphertext, padPlaintext text urandom = .ok padded ∧
      constructAad L role seq sessionId 2 = .ok aad ∧
      L.aesgcmEncrypt key.1 iv.1 padded aad = .ok ciphertext ∧
      payload = ⟨b64encode iv.1, b64encode ciphertext⟩ := by
  unfold encryptMessage at h
  obtain ⟨padded, hpadded, h⟩ := except_bind_eq_ok_iff.mp h
  obtain ⟨aad, haad, h⟩ := except_bind_eq_ok_iff.mp h
  obtain ⟨ciphertext, hsealed, h⟩ := except_bind_eq_ok_iff.mp h
  exact ⟨padded, aad, ciphertext, hpadded, haad, hsealed, (Except.ok.inj h).symm⟩

/-- What a message that is opened consists of. -/
theorem decryptMessage_eq_ok (h : decryptMessage L key ivB64 ctB64 role seq sessionId = .ok text) :
    ∃ nonce ciphertext aad data, b64decode ivB64 = .ok nonce ∧ b64decode ctB64 = .ok ciphertext ∧
      constructAad L role seq sessionId 2 = .ok aad ∧
      L.aesgcmDecrypt key.1 nonce ciphertext aad = .ok data := by
  unfold decryptMessage at h
  obtain ⟨nonce, hiv, h⟩ := except_bind_eq_ok_iff.mp h
  obtain ⟨ciphertext, hct, h⟩ := except_bind_eq_ok_iff.mp h
  obtain ⟨aad, haad, h⟩ := except_bind_eq_ok_iff.mp h
  obtain ⟨data, hdata, -⟩ := except_bind_eq_ok_iff.mp h
  exact ⟨nonce, ciphertext, aad, data, hiv, hct, haad, hdata⟩

/-- A message whose tag does not fit. -/
theorem decryptMessage_of_invalidTag {nonce ciphertext aad : List UInt8}
    (hiv : b64decode ivB64 = .ok nonce) (hct : b64decode ctB64 = .ok ciphertext)
    (haad : constructAad L role seq sessionId 2 = .ok aad)
    (htag : L.aesgcmDecrypt key.1 nonce ciphertext aad = .error .invalidTag) :
    decryptMessage L key ivB64 ctB64 role seq sessionId = .error .invalidTag := by
  unfold decryptMessage
  rw [hiv, hct, haad]
  dsimp only [bind, Except.bind]
  rw [htag]

/-- A message is read with what it was written with. -/
theorem decryptMessage_encryptMessage (hL : L.Documented)
    (h : encryptMessage L key text role seq sessionId iv urandom = .ok payload) :
    decryptMessage L key (.text payload.iv) (.text payload.ciphertext) role seq sessionId = .ok text := by
  obtain ⟨padded, aad, ciphertext, hpadded, haad, hsealed, rfl⟩ := encryptMessage_eq_ok h
  obtain ⟨hlength, hfits, htext⟩ := unpad_padPlaintext hpadded
  unfold decryptMessage
  rw [b64decode_b64encode, b64decode_b64encode, haad]
  dsimp only [bind, Except.bind]
  rw [hL.opens hsealed]
  dsimp only
  rw [hlength]
  dsimp only
  rw [if_neg (by omega)]
  rw [htext, decodeUtf8_toUTF8]

/-- No key opens as `peer` what was written as `me`. -/
theorem decryptMessage_peer (hL : L.Documented)
    (h : encryptMessage L key text "me" seq sessionId iv urandom = .ok payload) (key' : Bytes 32)
    (seq' : ℤ) (sessionId' : String) :
    ∃ e, decryptMessage L key' (.text payload.iv) (.text payload.ciphertext) "peer" seq' sessionId' =
      .error e := by
  obtain ⟨padded, aad, ciphertext, -, haad, hsealed, rfl⟩ := encryptMessage_eq_ok h
  rcases haad' : constructAad L "peer" seq' sessionId' 2 with e | aad'
  · refine ⟨e, ?_⟩
    unfold decryptMessage
    rw [b64decode_b64encode, b64decode_b64encode, haad']
    rfl
  · refine ⟨.invalidTag, decryptMessage_of_invalidTag (b64decode_b64encode _)
      (b64decode_b64encode _) haad' ?_⟩
    exact hL.tagged (hL.opens hsealed) fun hsame => aad_ne haad haad' hsame.2

/-- A message that was opened once is opened again by the same key only. -/
theorem decryptMessage_of_key (hL : L.Documented)
    (h : decryptMessage L key ivB64 ctB64 role seq sessionId = .ok text) (key' : Bytes 32) :
    decryptMessage L key' ivB64 ctB64 role seq sessionId =
      if key' = key then .ok text else .error .invalidTag := by
  split_ifs with hkey
  · rw [hkey, h]
  · obtain ⟨nonce, ciphertext, aad, data, hiv, hct, haad, hdata⟩ := decryptMessage_eq_ok h
    exact decryptMessage_of_invalidTag hiv hct haad (hL.tagged hdata fun hsame => hkey hsame.1)

end

/-! ## Chains -/

section

variable {Priv : Type} (C : Crypto Priv)

/-- A chain key after some steps. -/
def chainAt (chainKey : Bytes 32) (steps : ℕ) : Bytes 32 :=
  (fun chainKey => (deriveChainKeys C chainKey).nextChainKey)^[steps] chainKey

/-- The key of the message with this index on the chain. -/
def messageKeyAt (chainKey : Bytes 32) (index : ℕ) : Bytes 32 :=
  (deriveChainKeys C (chainAt C chainKey index)).messageKey

@[simp] theorem chainAt_zero (chainKey : Bytes 32) : chainAt C chainKey 0 = chainKey := rfl

theorem chainAt_succ (chainKey : Bytes 32) (steps : ℕ) :
    chainAt C chainKey (steps + 1) = (deriveChainKeys C (chainAt C chainKey steps)).nextChainKey :=
  Function.iterate_succ_apply' _ _ _

theorem messageKeyAt_chainAt (chainKey : Bytes 32) (steps index : ℕ) :
    messageKeyAt C (chainAt C chainKey steps) index = messageKeyAt C chainKey (steps + index) := by
  unfold messageKeyAt chainAt
  rw [← Function.iterate_add_apply, Nat.add_comm]

/-- The loop of `decrypt_historical` finds the key with the index of the message. -/
theorem stepKeys_succ (chainKey : Bytes 32) (index : ℕ) :
    stepKeys C chainKey (index + 1) = some (messageKeyAt C chainKey index) := by
  induction index generalizing chainKey with
  | zero => rfl
  | succ index ih =>
    rw [stepKeys, ih, show (deriveChainKeys C chainKey).nextChainKey = chainAt C chainKey 1 from rfl,
      messageKeyAt_chainAt, Nat.add_comm]

end

/-! ## Sessions -/

/-- The client is logged in and has these keys for the contact. -/
structure HasSession (onion : String) (keys : ChainKeys) (sessionId : String)
    (client : AnonyMusClient) : Prop where
  loggedIn : client.isLoggedIn = true
  keys     : client.chainKeys.get? onion = some keys
  session  : client.sessionIds.get? onion = some sessionId

section

variable {Priv : Type} {C : Crypto Priv} {L : Library} {onion sessionId : String} {keys : ChainKeys}
  {client : AnonyMusClient}

theorem HasSession.setKeys (h : HasSession onion keys sessionId client) (keys' : ChainKeys) :
    HasSession onion keys' sessionId
      { client with chainKeys := client.chainKeys.insert onion keys' } :=
  ⟨h.loggedIn, by simp [Dict.get?_insert], h.session⟩

theorem HasSession.sessionId_eq (h : HasSession onion keys sessionId client) :
    client.sessionId onion = .ok sessionId := by
  unfold AnonyMusClient.sessionId
  rw [h.session]

/-- The chain keys after one more message has been written. -/
def ChainKeys.sent (C : Crypto Priv) (keys : ChainKeys) : ChainKeys :=
  { keys with sendChainKey := (deriveChainKeys C keys.sendChainKey).nextChainKey }

/-- The chain keys after one more message has come in. -/
def ChainKeys.received (C : Crypto Priv) (keys : ChainKeys) : ChainKeys :=
  { keys with recvChainKey := (deriveChainKeys C keys.recvChainKey).nextChainKey }

/-- Sending steps the chain, and posts the message under the key of the step, unless it fails. -/
theorem HasSession.sendMessage (h : HasSession onion keys sessionId client) (text : String)
    (answers : SendAnswers) (iv : Bytes 12) (urandom : (n : ℕ) → Bytes n) :
    ∃ accepted posted, Python.sendMessage C L onion text answers iv urandom client =
        .ok (accepted, posted)
          { client with chainKeys := client.chainKeys.insert onion (keys.sent C) } ∧
      ∀ message ∈ posted, encryptMessage L (deriveChainKeys C keys.sendChainKey).messageKey text "me"
        message.seq sessionId iv urandom = .ok message.payload := by
  unfold Python.sendMessage
  rw [apply_bind, apply_get]
  dsimp only
  rw [if_neg (not_not_intro h.loggedIn), h.keys]
  dsimp only
  rw [apply_bind, apply_set]
  dsimp only
  have hencrypt : (do
      encryptMessage L (deriveChainKeys C keys.sendChainKey).messageKey text "me"
        (getMessages C L client onion answers.history).length (← client.sessionId onion) iv urandom) =
      encryptMessage L (deriveChainKeys C keys.sendChainKey).messageKey text "me"
        (getMessages C L client onion answers.history).length sessionId iv urandom := by
    rw [h.sessionId_eq, except_ok_bind]
  rw [hencrypt]
  rcases hencrypted : encryptMessage L (deriveChainKeys C keys.sendChainKey).messageKey text "me"
      (getMessages C L client onion answers.history).length sessionId iv urandom with e | payload
  · exact ⟨false, none, rfl, fun _ h => by cases h⟩
  · dsimp only
    split_ifs
    · refine ⟨_, _, rfl, ?_⟩
      rintro _ ⟨⟩
      exact hencrypted
    · exact ⟨_, _, rfl, fun _ h => by cases h⟩

/-- What comes in steps the chain, and is read with the key of the step. -/
theorem HasSession.decryptIncoming (h : HasSession onion keys sessionId client)
    (iv ciphertext : Value) (seq : ℤ) :
    Python.decryptIncoming C L onion iv ciphertext seq client =
      .ok (decryptMessage L (deriveChainKeys C keys.recvChainKey).messageKey iv ciphertext "peer" seq
          sessionId).toOption
        { client with chainKeys := client.chainKeys.insert onion (keys.received C) } := by
  unfold Python.decryptIncoming
  rw [apply_bind, apply_get]
  dsimp only
  rw [h.keys]
  dsimp only
  rw [apply_bind, apply_set]
  dsimp only
  rw [h.sessionId_eq]
  dsimp only [bind, Except.bind]
  rcases decryptMessage L (deriveChainKeys C keys.recvChainKey).messageKey iv ciphertext "peer" seq
    sessionId with e | text <;> rfl

/-- The history reads a message with the key that follows the current one by its number. -/
theorem HasSession.decryptHistorical (h : HasSession onion keys sessionId client)
    (iv ciphertext : Value) {seq : ℤ} (hseq : 0 ≤ seq) (role : String) :
    Python.decryptHistorical C L client onion iv ciphertext seq role =
      textOrError (decryptMessage L (messageKeyAt C
        (if role = "me" then keys.sendChainKey else keys.recvChainKey) seq.toNat)
        iv ciphertext role seq sessionId) := by
  unfold Python.decryptHistorical
  rw [h.keys]
  dsimp only
  unfold historicalText
  rw [show (seq + 1).toNat = seq.toNat + 1 by omega]
  dsimp only
  rw [stepKeys_succ]
  dsimp only
  rw [h.sessionId_eq]
  rfl

end

/-! ## History -/

/-- A message of the contact, with the text that was sent or that came in. -/
structure Logged where
  mine       : Bool
  iv         : Value
  ciphertext : Value
  seq        : ℤ
  text       : String

/-- The role under which the history opens the message. -/
def Logged.role (m : Logged) : String := if m.mine then "me" else "peer"

/-- The row in which the server keeps the message. -/
def Logged.row (m : Logged) (onion : String) (timestamp : ℤ) : StoredMessage where
  sender    := if m.mine then "me" else onion
  message   := some (((Dict.empty.insert "iv" m.iv).insert "ciphertext" m.ciphertext).insert "seq"
    (.int m.seq))
  timestamp := timestamp

/-- The message that is logged, by the answer of `send_message`. -/
def loggedSend (text : String) : Option (Bool × Option Posted) → Option Logged
  | some (true, some posted) =>
    some ⟨true, .text posted.payload.iv, .text posted.payload.ciphertext, posted.seq, text⟩
  | _ => none

/-- What happens to the client on one contact. -/
inductive SdkEvent
  | send (text : String) (answers : SendAnswers) (iv : Bytes 12) (urandom : (n : ℕ) → Bytes n)
  | receive (iv ciphertext : Value) (seq : ℤ)

def SdkEvent.isSend : SdkEvent → Bool
  | send .. => true
  | receive .. => false

section

variable {Priv : Type} (C : Crypto Priv) (L : Library) (onion : String)

def SdkEvent.run : SdkEvent → EStateM PyError AnonyMusClient Unit
  | send text answers iv urandom => do let _ ← sendMessage C L onion text answers iv urandom
  | receive iv ciphertext seq => do let _ ← decryptIncoming C L onion iv ciphertext seq

/-- What the event adds to the messages: what was sent and accepted, or came in and was read. -/
def SdkEvent.logs : SdkEvent → AnonyMusClient → Option Logged
  | send text answers iv urandom, client =>
    loggedSend text (sendMessage C L onion text answers iv urandom client).value?
  | receive iv ciphertext seq, client =>
    (decryptIncoming C L onion iv ciphertext seq client).value?.join.map fun text =>
      ⟨false, iv, ciphertext, seq, text⟩

/-- The history shows the text of the message. -/
def Reads (client : AnonyMusClient) (m : Logged) : Prop :=
  decryptHistorical C L client onion m.iv m.ciphertext m.seq m.role = m.text ∧
    ∀ timestamp, showMessage C L client onion (m.row onion timestamp) =
      ⟨if m.mine then "me" else onion, m.text, timestamp, m.seq⟩

/-- Every message can be read at every later moment of the run. -/
def HistoryReadable (events : List SdkEvent) (client : AnonyMusClient) : Prop :=
  ∀ before e later, before ++ e :: later <+: events →
    ∀ m ∈ e.logs C L onion (after (SdkEvent.run C L onion) before client),
      Reads C L onion (after (SdkEvent.run C L onion) (before ++ e :: later) client) m

/-- The chain on which messages are sent, or come in. -/
def ChainKeys.chain (keys : ChainKeys) (mine : Bool) : Bytes 32 :=
  if mine then keys.sendChainKey else keys.recvChainKey

/-- The steps that the events make on the chain. -/
def advances (mine : Bool) (events : List SdkEvent) : ℕ := events.countP fun e => e.isSend = mine

/-- The key of every message comes again: it follows the key that the chain has reached at any later
moment by the number of the message. A text that looks like the failure of its decryption needs no
key. -/
def KeysRecur (keys : ChainKeys) (events : List SdkEvent) (client : AnonyMusClient) : Prop :=
  ∀ before e later, before ++ e :: later <+: events →
    ∀ m ∈ e.logs C L onion (after (SdkEvent.run C L onion) before client),
      messageKeyAt C (keys.chain m.mine) (advances m.mine (before ++ e :: later) + m.seq.toNat) =
          messageKeyAt C (keys.chain m.mine) (advances m.mine before) ∨
        m.text = "[Decryption Error: ]"

end

section

variable {Priv : Type} {C : Crypto Priv} {L : Library} {onion sessionId : String} {keys : ChainKeys}
  {client : AnonyMusClient} {events : List SdkEvent}

/-- The chain keys after some events. -/
def ChainKeys.afterEvents (C : Crypto Priv) (keys : ChainKeys) (events : List SdkEvent) : ChainKeys where
  sendChainKey := chainAt C keys.sendChainKey (advances true events)
  recvChainKey := chainAt C keys.recvChainKey (advances false events)

theorem chain_afterEvents (mine : Bool) :
    (keys.afterEvents C events).chain mine = chainAt C (keys.chain mine) (advances mine events) := by
  rcases mine with _ | _ <;> rfl

/-- Each event makes one step on its chain. -/
theorem afterEvents_concat (e : SdkEvent) :
    keys.afterEvents C (events ++ [e]) =
      if e.isSend then (keys.afterEvents C events).sent C else (keys.afterEvents C events).received C := by
  rcases e with _ | _ <;>
    simp [ChainKeys.afterEvents, ChainKeys.sent, ChainKeys.received, advances, SdkEvent.isSend,
      chainAt_succ]

/-- The client keeps its session, on the chain keys that the events have reached. -/
theorem HasSession.after (h : HasSession onion keys sessionId client) (events : List SdkEvent) :
    HasSession onion (keys.afterEvents C events) sessionId
      (EStateM.after (SdkEvent.run C L onion) events client) := by
  induction events using List.reverseRecOn with
  | nil => exact h
  | append_singleton events e ih =>
    rw [after_append, after_cons, after_nil, afterEvents_concat]
    rcases e with ⟨text, answers, iv, urandom⟩ | ⟨iv, ciphertext, seq⟩
    · obtain ⟨accepted, posted, hrun, -⟩ := ih.sendMessage (C := C) (L := L) text answers iv urandom
      rw [SdkEvent.run, apply_bind, hrun]
      exact ih.setKeys _
    · rw [SdkEvent.run, apply_bind, ih.decryptIncoming]
      exact ih.setKeys _

/-- A message is logged once it has been opened, or could be, with the key of its step. -/
theorem HasSession.logs (h : HasSession onion keys sessionId client) (hL : L.Documented) {e : SdkEvent}
    {m : Logged} (hm : m ∈ e.logs C L onion client) :
    decryptMessage L (messageKeyAt C (keys.chain m.mine) 0) m.iv m.ciphertext m.role m.seq sessionId =
        .ok m.text := by
  rcases e with ⟨text, answers, iv, urandom⟩ | ⟨iv, ciphertext, seq⟩
  · obtain ⟨accepted, posted, hrun, hposted⟩ := h.sendMessage (C := C) (L := L) text answers iv urandom
    rw [SdkEvent.logs, hrun] at hm
    rcases accepted with _ | _
    · cases hm
    rcases posted with _ | posted
    · cases hm
    obtain rfl := Option.some.inj hm
    exact decryptMessage_encryptMessage hL (hposted _ rfl)
  · rw [SdkEvent.logs, h.decryptIncoming, Option.mem_def, Option.map_eq_some_iff] at hm
    obtain ⟨text, htext, rfl⟩ := hm
    rcases hdecrypted : decryptMessage L (deriveChainKeys C keys.recvChainKey).messageKey iv ciphertext
        "peer" seq sessionId with e | text'
    · rw [hdecrypted] at htext
      cases htext
    · rw [hdecrypted] at htext
      obtain rfl := Option.some.inj htext
      exact hdecrypted

/-- The server's row of a message is shown as the history reads the message. -/
theorem showMessage_row (hL : L.Documented) (honion : onion ≠ "me") (m : Logged) (timestamp : ℤ) :
    showMessage C L client onion (m.row onion timestamp) =
      ⟨if m.mine then "me" else onion,
        decryptHistorical C L client onion m.iv m.ciphertext m.seq m.role, timestamp, m.seq⟩ := by
  have hrole : (if (if m.mine = true then "me" else onion) = "me" then "me" else "peer") = m.role := by
    rcases hmine : m.mine with _ | _ <;> simp [Logged.role, hmine, honion]
  unfold showMessage Logged.row
  simp only [payloadGet, Dict.get?_insert, hrole]
  simp [hL.int]

/-- The history reads a message when the key that it finds is the key of the message. -/
theorem HasSession.reads_iff (h : HasSession onion keys sessionId client) (hL : L.Documented)
    (honion : onion ≠ "me") {m : Logged} {key : Bytes 32}
    (hm : decryptMessage L key m.iv m.ciphertext m.role m.seq sessionId = .ok m.text) :
    Reads C L onion client m ↔
      messageKeyAt C (keys.chain m.mine) m.seq.toNat = key ∨ m.text = "[Decryption Error: ]" := by
  obtain ⟨_, _, aad, _, -, -, haad, -⟩ := decryptMessage_eq_ok hm
  have hchain : (if m.role = "me" then keys.sendChainKey else keys.recvChainKey) =
      keys.chain m.mine := by
    rcases hmine : m.mine with _ | _ <;> simp [Logged.role, hmine, ChainKeys.chain]
  have hhistorical := h.decryptHistorical (C := C) (L := L) m.iv m.ciphertext
    (constructAad_eq_ok haad).1 m.role
  rw [hchain, decryptMessage_of_key hL hm] at hhistorical
  have hreads : Reads C L onion client m ↔
      Python.decryptHistorical C L client onion m.iv m.ciphertext m.seq m.role = m.text := by
    constructor
    · intro hreads
      exact hreads.1
    · intro htext
      refine ⟨htext, fun timestamp => ?_⟩
      rw [showMessage_row hL honion, htext]
  rw [hreads, hhistorical]
  split_ifs with hkey
  · exact iff_of_true rfl (.inl hkey)
  · rw [or_iff_right hkey]
    exact eq_comm

/-- The history can be read throughout a run exactly when every message's key comes again where the
history looks for it. -/
theorem history_readable_iff (C : Crypto Priv) (hL : L.Documented) (honion : onion ≠ "me")
    (hsession : HasSession onion keys sessionId client) (events : List SdkEvent) :
    HistoryReadable C L onion events client ↔ KeysRecur C L onion keys events client := by
  refine forall_congr' fun before => forall_congr' fun e => forall_congr' fun later =>
    forall_congr' fun _ => forall₂_congr fun m hm => ?_
  have hlogs := (hsession.after before).logs hL hm
  rw [chain_afterEvents, messageKeyAt_chainAt, Nat.add_zero] at hlogs
  rw [(hsession.after (before ++ e :: later)).reads_iff hL honion hlogs, chain_afterEvents,
    messageKeyAt_chainAt]

end

/-! ## Two clients -/

/-- Two clients and the posted messages that are on their way to each of them, with their texts. -/
structure Talk where
  client   : Bool → AnonyMusClient
  inFlight : Bool → List (String × Posted)

inductive TalkEvent
  | send (side : Bool) (text : String) (answers : SendAnswers) (iv : Bytes 12)
      (urandom : (n : ℕ) → Bytes n)
  | deliver (side : Bool)

/-- What goes on its way, by the answer of `send_message`. -/
def outgoing (text : String) : Option (Bool × Option Posted) → List (String × Posted)
  | some (true, some posted) => [(text, posted)]
  | _ => []

section

variable {Priv : Type} (C : Crypto Priv) (L : Library) (onion : Bool → String)

/-- What the side hears of a message, and its client afterwards. -/
def hear (talk : Talk) (side : Bool) (posted : Posted) :
    EStateM.Result PyError AnonyMusClient (Option String) :=
  decryptIncoming C L (onion !side) (.text posted.payload.iv) (.text posted.payload.ciphertext)
    posted.seq (talk.client side)

/-- What is sent and accepted is on its way to the other side, which gets it in order. -/
def TalkEvent.run : TalkEvent → EStateM PyError Talk Unit
  | send side text answers iv urandom => do
    let talk ← get
    let result := sendMessage C L (onion !side) text answers iv urandom (talk.client side)
    set ({ client := Function.update talk.client side result.state
           inFlight := Function.update talk.inFlight (!side)
             (talk.inFlight (!side) ++ outgoing text result.value?) } : Talk)
  | deliver side => do
    let talk ← get
    match talk.inFlight side with
    | [] => return
    | (_, posted) :: rest =>
      set ({ client := Function.update talk.client side (hear C L onion talk side posted).state
             inFlight := Function.update talk.inFlight side rest } : Talk)

/-- Whatever is delivered in the run is heard as it was sent. -/
def HeardAsSent (events : List TalkEvent) (talk : Talk) : Prop :=
  ∀ done side todo, events = done ++ .deliver side :: todo →
    ∀ m ∈ ((after (TalkEvent.run C L onion) done talk).inFlight side).head?,
      (hear C L onion (after (TalkEvent.run C L onion) done talk) side m.2).value? = some (some m.1)

/-- No delivery of the run finds a message. -/
def NothingDelivered (events : List TalkEvent) (talk : Talk) : Prop :=
  ∀ done side todo, events = done ++ .deliver side :: todo →
    (after (TalkEvent.run C L onion) done talk).inFlight side = []

/-- A call posts its message, and the server accepts it. -/
def TalkEvent.Posts : TalkEvent → Talk → Prop
  | send side text answers iv urandom, talk => ∃ posted,
    (sendMessage C L (onion !side) text answers iv urandom (talk.client side)).value? =
      some (true, some posted)
  | deliver _, _ => True

/-- With the role of the sender, the receiver would read whatever is delivered in the run. -/
def HeardAsMe (events : List TalkEvent) (talk : Talk) : Prop :=
  ∀ done side todo, events = done ++ .deliver side :: todo →
    ∀ m ∈ ((after (TalkEvent.run C L onion) done talk).inFlight side).head?,
      ∃ keys sessionId, HasSession (onion !side) keys sessionId
          ((after (TalkEvent.run C L onion) done talk).client side) ∧
        decryptMessage L (deriveChainKeys C keys.recvChainKey).messageKey (.text m.2.payload.iv)
          (.text m.2.payload.ciphertext) "me" m.2.seq sessionId = .ok m.1

/-- Both sides have run `init_contact_session` with each other: they have the same secret and each
other's public keys, and these differ. -/
structure Introduced (talk : Talk) : Prop where
  loggedIn : ∀ side, (talk.client side).isLoggedIn = true
  nothing  : ∀ side, talk.inFlight side = []
  sessions : ∃ (secret key : Bool → String) (mine : Bool → Option String)
      (fresh : Bool → AnonyMusClient), key true ≠ key false ∧
    b64decode (.text (secret true).toList) = b64decode (.text (secret false).toList) ∧
    ∀ side, ownKey (mine side) (fresh side) = key side ∧
      initContactSession C L ⟨onion !side, secret side, key !side, mine side⟩ (fresh side) =
        .ok ⟨⟩ (talk.client side)

end

section

variable {Priv : Type} {C : Crypto Priv} {L : Library} {onion : Bool → String} {sessionId : String}
  {keys : Bool → ChainKeys} {talk : Talk} {exact : Prop}

/-- Both sides have sessions, and what is in flight was written as `me`. When `exact`, it was
written with the keys that the receiver comes to next. -/
structure Linked (C : Crypto Priv) (L : Library) (onion : Bool → String) (sessionId : String)
    (exact : Prop) (keys : Bool → ChainKeys) (talk : Talk) : Prop where
  session : ∀ side, HasSession (onion !side) (keys side) sessionId (talk.client side)
  sealed  : ∀ side i m, (talk.inFlight side)[i]? = some m → ∃ key iv urandom,
    encryptMessage L key m.1 "me" m.2.seq sessionId iv urandom = .ok m.2.payload ∧
      (exact → key = messageKeyAt C (keys side).recvChainKey i)
  inStep  : exact → ∀ side,
    (keys !side).sendChainKey = chainAt C (keys side).recvChainKey (talk.inFlight side).length

/-- What `init_contact_session` leaves. -/
theorem initContactSession_eq_ok {contact : SdkContact} {client client' : AnonyMusClient}
    (h : initContactSession C L contact client = .ok ⟨⟩ client') :
    ∃ secret, b64decode (.text contact.sharedSecret.toList) = .ok secret ∧
      client'.isLoggedIn = client.isLoggedIn ∧
      client'.chainKeys.get? contact.onionAddress = some {
        sendChainKey := hkdfDerive C secret
          (if ownKey contact.myPublicKey client < contact.peerPublicKey then labelClient else labelServer)
          (List.replicate 32 0)
        recvChainKey := hkdfDerive C secret
          (if ownKey contact.myPublicKey client < contact.peerPublicKey then labelServer else labelClient)
          (List.replicate 32 0) } ∧
      client'.sessionIds.get? contact.onionAddress =
        some (computeSafetyNumber L (ownKey contact.myPublicKey client) contact.peerPublicKey) := by
  unfold initContactSession at h
  rw [apply_bind, apply_get] at h
  dsimp only at h
  rw [apply_bind, apply_ofExcept] at h
  rcases hsecret : b64decode (.text contact.sharedSecret.toList) with e | secret
  · rw [hsecret] at h
    cases h
  rw [hsecret] at h
  dsimp only at h
  obtain ⟨-, rfl⟩ := Result.ok.inj h
  refine ⟨secret, rfl, rfl, ?_, ?_⟩
  · rw [Dict.get?_insert, if_pos rfl]
    simp only [decide_eq_true_eq]
    by_cases halice : ownKey contact.myPublicKey client < contact.peerPublicKey
    · simp only [if_pos halice]
    · simp only [if_neg halice]
  · rw [Dict.get?_insert, if_pos rfl]

/-- Two sides that have introduced each other have sessions in step. -/
theorem Introduced.linked (h : Introduced C L onion talk) (exact : Prop) :
    ∃ sessionId keys, Linked C L onion sessionId exact keys talk := by
  obtain ⟨secret, key, mine, fresh, hne, hsame, hinit⟩ := h.sessions
  have hdistinct : ∀ side, key side ≠ key !side := by
    rintro (_ | _)
    · exact hne.symm
    · exact hne
  obtain ⟨shared, hshared⟩ : ∃ shared, ∀ side, b64decode (.text (secret side).toList) = .ok shared := by
    obtain ⟨shared, hshared, -⟩ := initContactSession_eq_ok (hinit true).2
    refine ⟨shared, ?_⟩
    rintro (_ | _)
    · exact hsame.symm.trans hshared
    · exact hshared
  refine ⟨computeSafetyNumber L (key true) (key false), fun side => {
    sendChainKey := hkdfDerive C shared (if key side < key !side then labelClient else labelServer)
      (List.replicate 32 0)
    recvChainKey := hkdfDerive C shared (if key side < key !side then labelServer else labelClient)
      (List.replicate 32 0) }, ?_, ?_, ?_⟩
  · intro side
    obtain ⟨hown, hinit⟩ := hinit side
    obtain ⟨shared', hshared', -, hkeys, hids⟩ := initContactSession_eq_ok hinit
    obtain rfl := Except.ok.inj (hshared'.symm.trans (hshared side))
    dsimp only at hkeys hids
    rw [hown] at hkeys hids
    refine ⟨h.loggedIn side, hkeys, ?_⟩
    rw [hids]
    rcases side with _ | _
    · rw [computeSafetyNumber_comm]
      rfl
    · rfl
  · intro side i m hm
    rw [h.nothing] at hm
    simp at hm
  · intro _ side
    -- exactly one of the two sides is Alice
    rw [h.nothing, List.length_nil, chainAt_zero, Bool.not_not]
    dsimp only
    rcases lt_or_gt_of_ne (hdistinct side) with hlt | hgt
    · rw [if_neg hlt.asymm, if_pos hlt]
    · rw [if_pos hgt, if_neg hgt.asymm]

theorem run_send {side : Bool} {text : String} {answers : SendAnswers} {iv : Bytes 12}
    {urandom : (n : ℕ) → Bytes n} {accepted : Bool} {posted : Option Posted} {client : AnonyMusClient}
    (h : sendMessage C L (onion !side) text answers iv urandom (talk.client side) =
      .ok (accepted, posted) client) :
    ((TalkEvent.send side text answers iv urandom).run C L onion talk).state =
      { client := Function.update talk.client side client
        inFlight := Function.update talk.inFlight (!side)
          (talk.inFlight (!side) ++ outgoing text (some (accepted, posted))) } := by
  rw [TalkEvent.run, apply_bind, apply_get]
  dsimp only
  rw [h]
  rfl

/-- A chain key that new keys have in common with the old ones. -/
theorem field_update {β : Type} (field : ChainKeys → β) {side : Bool} {keys₁ : ChainKeys}
    (hsame : field keys₁ = field (keys side)) (side' : Bool) :
    field (Function.update keys side keys₁ side') = field (keys side') := by
  rcases eq_or_ne side' side with rfl | hne
  · rw [Function.update_self, hsame]
  · rw [Function.update_of_ne hne]

/-- With new chain keys on one side both still have their sessions. -/
theorem Linked.setKeys (h : Linked C L onion sessionId exact keys talk) (side : Bool)
    (keys₁ : ChainKeys) (side' : Bool) :
    HasSession (onion !side') (Function.update keys side keys₁ side') sessionId
      (Function.update talk.client side
        { talk.client side with
          chainKeys := (talk.client side).chainKeys.insert (onion !side) keys₁ } side') := by
  rcases eq_or_ne side' side with rfl | hne
  · rw [Function.update_self, Function.update_self]
    exact (h.session side').setKeys _
  · rw [Function.update_of_ne hne, Function.update_of_ne hne]
    exact h.session side'

/-- A message that is sent is the last one in flight to the other side. -/
theorem Linked.send (h : Linked C L onion sessionId exact keys talk) {side : Bool} {text : String}
    {answers : SendAnswers} {iv : Bytes 12} {urandom : (n : ℕ) → Bytes n}
    (hposts : exact → (TalkEvent.send side text answers iv urandom).Posts C L onion talk) :
    Linked C L onion sessionId exact (Function.update keys side ((keys side).sent C))
      ((TalkEvent.send side text answers iv urandom).run C L onion talk).state := by
  obtain ⟨accepted, posted, hrun, hposted⟩ := (h.session side).sendMessage (C := C) (L := L) text
    answers iv urandom
  have hkeys : ∀ side', (Function.update keys side ((keys side).sent C) side').recvChainKey =
      (keys side').recvChainKey := field_update ChainKeys.recvChainKey rfl
  have hlength : ∀ posted', posted = some posted' → accepted = true →
      outgoing text (some (accepted, posted)) = [(text, posted')] := by
    rintro posted' rfl rfl
    rfl
  rw [run_send hrun]
  refine ⟨h.setKeys side _, ?_, ?_⟩
  · intro side' i m hm
    rw [hkeys]
    dsimp only at hm
    rcases eq_or_ne side' (!side) with rfl | hne
    · rw [Function.update_self, List.getElem?_append] at hm
      split_ifs at hm with hi
      · exact h.sealed _ i m hm
      · -- the message that is sent
        have hmem := List.mem_of_getElem? hm
        rcases accepted with _ | _
        · cases hmem
        rcases posted with _ | posted
        · cases hmem
        obtain rfl := List.mem_singleton.mp hmem
        refine ⟨_, iv, urandom, hposted _ rfl, fun hexact => ?_⟩
        have hindex : i = (talk.inFlight (!side)).length := by
          have hlt := (List.getElem?_eq_some_iff.mp hm).1
          rw [hlength posted rfl rfl, List.length_singleton] at hlt
          omega
        have hstep := h.inStep hexact (!side)
        rw [Bool.not_not] at hstep
        rw [hindex, hstep]
        rfl
    · rw [Function.update_of_ne hne] at hm
      exact h.sealed side' i m hm
  · intro hexact side'
    rw [hkeys]
    dsimp only
    rcases eq_or_ne side' (!side) with rfl | hne
    · -- the sender's chain is one step longer, as is the queue
      obtain ⟨posted', hanswer⟩ := hposts hexact
      rw [hrun] at hanswer
      obtain ⟨rfl, rfl⟩ := Prod.mk.inj (Option.some.inj hanswer)
      have hstep := h.inStep hexact (!side)
      rw [Bool.not_not] at hstep ⊢
      rw [Function.update_self, Function.update_self, hlength posted' rfl rfl, List.length_append,
        List.length_singleton, chainAt_succ, ← hstep]
      rfl
    · have hother : (!side') ≠ side := fun hsame => hne (by rw [← hsame, Bool.not_not])
      rw [Function.update_of_ne hne, Function.update_of_ne hother]
      exact h.inStep hexact side'

theorem run_deliver {side : Bool} {m : String × Posted} {rest : List (String × Posted)}
    (hqueue : talk.inFlight side = m :: rest) :
    ((TalkEvent.deliver side).run C L onion talk).state =
      { client := Function.update talk.client side (hear C L onion talk side m.2).state
        inFlight := Function.update talk.inFlight side rest } := by
  rw [TalkEvent.run, apply_bind, apply_get]
  dsimp only
  rw [hqueue]
  rfl

/-- The first message in flight is delivered, and the receiver's chain goes on. -/
theorem Linked.deliver (h : Linked C L onion sessionId exact keys talk) {side : Bool}
    {m : String × Posted} {rest : List (String × Posted)}
    (hqueue : talk.inFlight side = m :: rest) :
    Linked C L onion sessionId exact (Function.update keys side ((keys side).received C))
      ((TalkEvent.deliver side).run C L onion talk).state := by
  have hkeys : ∀ side', (Function.update keys side ((keys side).received C) side').sendChainKey =
      (keys side').sendChainKey := field_update ChainKeys.sendChainKey rfl
  rw [run_deliver hqueue, hear, (h.session side).decryptIncoming]
  refine ⟨h.setKeys side _, ?_, ?_⟩
  · intro side' i m' hm
    dsimp only at hm
    rcases eq_or_ne side' side with rfl | hne
    · rw [Function.update_self] at hm ⊢
      obtain ⟨key, iv, urandom, hencrypt, hkey⟩ := h.sealed side' (i + 1) m' (by
        rw [hqueue, List.getElem?_cons_succ, hm])
      refine ⟨key, iv, urandom, hencrypt, fun hexact => ?_⟩
      rw [hkey hexact, Nat.add_comm, ← messageKeyAt_chainAt]
      rfl
    · rw [Function.update_of_ne hne] at hm ⊢
      exact h.sealed side' i m' hm
  · intro hexact side'
    rw [hkeys]
    dsimp only
    have hstep := h.inStep hexact side'
    rcases eq_or_ne side' side with rfl | hne
    · -- the receiver's chain starts one step later, and one message less is in flight
      rw [Function.update_self, Function.update_self, hstep, hqueue, List.length_cons]
      unfold chainAt
      rw [Function.iterate_succ_apply]
      rfl
    · rw [Function.update_of_ne hne, Function.update_of_ne hne]
      exact hstep

/-- What the events do keeps the sides linked, in step if every call posts its message. -/
theorem Linked.step (h : Linked C L onion sessionId exact keys talk) (e : TalkEvent)
    (hposts : exact → e.Posts C L onion talk) :
    ∃ keys', Linked C L onion sessionId exact keys' (e.run C L onion talk).state := by
  rcases e with ⟨side, text, answers, iv, urandom⟩ | side
  · exact ⟨_, h.send hposts⟩
  · rcases hqueue : talk.inFlight side with _ | ⟨m, rest⟩
    · refine ⟨keys, ?_⟩
      rw [TalkEvent.run, apply_bind, apply_get]
      dsimp only
      rw [hqueue]
      exact h
    · exact ⟨_, h.deliver hqueue⟩

theorem Linked.after (h : Linked C L onion sessionId exact keys talk) {events : List TalkEvent}
    (hposts : exact → AllMeet (TalkEvent.run C L onion) (TalkEvent.Posts C L onion) events talk) :
    ∃ keys', Linked C L onion sessionId exact keys'
      (EStateM.after (TalkEvent.run C L onion) events talk) := by
  induction events generalizing keys talk with
  | nil => exact ⟨keys, h⟩
  | cons e events ih =>
    obtain ⟨keys', h'⟩ := h.step e fun hexact => (hposts hexact).1
    exact ih h' fun hexact => (hposts hexact).2

/-- Two clients that have introduced each other hear what they send exactly when nothing is
delivered; and if every call posts its message, then they have the keys to what is delivered. -/
theorem conversation_iff (C : Crypto Priv) (hL : L.Documented) (hintroduced : Introduced C L onion talk)
    (events : List TalkEvent) :
    (HeardAsSent C L onion events talk ↔ NothingDelivered C L onion events talk) ∧
      (AllMeet (TalkEvent.run C L onion) (TalkEvent.Posts C L onion) events talk →
        HeardAsMe C L onion events talk) := by
  constructor
  · obtain ⟨sessionId, keys, hlinked⟩ := hintroduced.linked False
    refine forall_congr' fun done => forall_congr' fun side => forall_congr' fun todo =>
      forall_congr' fun _ => ?_
    obtain ⟨keys', hlinked'⟩ := @Linked.after _ _ _ _ _ _ _ _ hlinked done fun h => h.elim
    rcases hqueue : (EStateM.after (TalkEvent.run C L onion) done talk).inFlight side with _ | ⟨m, rest⟩
    · simp
    · refine iff_of_false (fun hheard => ?_) (List.cons_ne_nil m rest)
      obtain ⟨key, iv, urandom, hencrypt, -⟩ := hlinked'.sealed side 0 m (by rw [hqueue]; rfl)
      obtain ⟨e, hpeer⟩ := decryptMessage_peer hL hencrypt
        (deriveChainKeys C (keys' side).recvChainKey).messageKey m.2.seq sessionId
      have hnone := hheard m rfl
      rw [hear, (hlinked'.session side).decryptIncoming, hpeer] at hnone
      cases hnone
  · intro hposts done side todo hsplit m hm
    obtain ⟨sessionId, keys, hlinked⟩ := hintroduced.linked True
    rw [hsplit, allMeet_append] at hposts
    obtain ⟨keys', hlinked'⟩ := hlinked.after fun _ => hposts.1
    obtain ⟨key, iv, urandom, hencrypt, hkey⟩ := hlinked'.sealed side 0 m (by
      rw [← List.head?_eq_getElem?]
      exact hm)
    refine ⟨keys' side, sessionId, hlinked'.session side, ?_⟩
    rw [hkey trivial] at hencrypt
    exact decryptMessage_encryptMessage hL hencrypt

end

/-! ## A greeting -/

/-- A chain that counts: the key of a step is the number of the step, in every byte. -/
def countingCrypto : Crypto Unit where
  publicBytes _ := Bytes.replicate 32 0
  exchange _ _ := none
  hkdf salt _ _ := ⟨List.replicate 32 (salt.headD 0) ++ List.replicate 32 (salt.headD 0 + 1), by simp⟩

/-- The key and the associated data, in front of what is sealed. -/
def tagOf (key aad : List UInt8) : List UInt8 := key ++ (aad.flatMap fun b => [1, b]) ++ [0]

/-- An AES-GCM that hides nothing. -/
def taggingLibrary : Library where
  int
    | .int i => .ok i
    | _ => .error (.typeError "int() argument must be a string or a real number")
  sha256 _ := Bytes.replicate 32 0
  boxEncrypt _ _ plaintext nonce := .ok (nonce ++ plaintext)
  boxDecrypt _ _ combined := .ok (combined.drop 24)
  aesgcmEncrypt key _ data aad := .ok (tagOf key aad ++ data)
  aesgcmDecrypt key _ sealed aad :=
    if tagOf key aad <+: sealed then .ok (sealed.drop (tagOf key aad).length) else .error .invalidTag

/-- No tag goes on from another one. -/
theorem tagOf_prefix {key key' : Bytes 32} {aad aad' : List UInt8}
    (h : tagOf key.1 aad <+: tagOf key'.1 aad') : key' = key ∧ aad' = aad := by
  have hmarks : ∀ aad aad' : List UInt8, (aad.flatMap fun b => [1, b]) ++ [0] <+:
      (aad'.flatMap fun b => [1, b]) ++ [0] → aad' = aad := by
    intro aad
    induction aad with
    | nil =>
      rintro (_ | ⟨b, aad'⟩) h
      · rfl
      · simp [List.cons_prefix_cons] at h
    | cons a aad ih =>
      rintro (_ | ⟨b, aad'⟩) h
      · simp [List.cons_prefix_cons] at h
      · simp only [List.flatMap_cons, List.cons_append, List.nil_append, List.cons_prefix_cons] at h
        rw [h.2.1, ih aad' h.2.2]
  unfold tagOf at h
  rw [List.append_assoc, List.append_assoc] at h
  obtain ⟨rest, hrest⟩ := h
  rw [List.append_assoc] at hrest
  obtain ⟨hkey, hmark⟩ := List.append_inj hrest (key.2.trans key'.2.symm)
  exact ⟨Subtype.ext hkey.symm, hmarks aad aad' ⟨rest, hmark⟩⟩

theorem documented_taggingLibrary : taggingLibrary.Documented where
  int _ := rfl
  opens := by
    rintro key nonce data aad sealed ⟨⟩
    show (if tagOf key.1 aad <+: tagOf key.1 aad ++ data then _ else _) = _
    rw [if_pos (List.prefix_append _ _), List.drop_left]
  tagged := by
    intro key key' nonce sealed aad aad' data hopen hne
    have hprefix : tagOf key.1 aad <+: sealed := by
      by_contra hnot
      have hfails : taggingLibrary.aesgcmDecrypt key.1 nonce sealed aad = .error .invalidTag :=
        if_neg hnot
      cases hfails.symm.trans hopen
    refine if_neg fun hprefix' => hne ?_
    rcases List.prefix_or_prefix_of_prefix hprefix hprefix' with h | h
    · exact tagOf_prefix h
    · obtain ⟨hkey, haad⟩ := tagOf_prefix h
      exact ⟨hkey.symm, haad.symm⟩

/-- The public keys and the addresses of the two sides. -/
def sideName : Bool → String
  | true => "A"
  | false => "B"

def freshClient (side : Bool) : AnonyMusClient := ⟨true, sideName side, .empty, .empty⟩

/-- Two clients that have run `init_contact_session` with each other. -/
def greeters : Talk where
  client side := (initContactSession countingCrypto taggingLibrary
    ⟨sideName !side, "", sideName !side, none⟩ (freshClient side)).state
  inFlight _ := []

theorem introduced_greeters : Introduced countingCrypto taggingLibrary sideName greeters where
  loggedIn _ := rfl
  nothing _ := rfl
  sessions := ⟨fun _ => "", sideName, fun _ => none, freshClient, by decide, rfl, fun _ => ⟨rfl, rfl⟩⟩

def greeting : TalkEvent :=
  .send true "hi" ⟨none, true, true⟩ (Bytes.replicate 12 0) (Bytes.replicate · 0)

theorem greeting_sent :
    HeardAsSent countingCrypto taggingLibrary sideName [greeting] greeters := by
  refine (conversation_iff countingCrypto documented_taggingLibrary introduced_greeters _).1.mpr ?_
  rintro (_ | ⟨e, _ | ⟨e', done⟩⟩) side todo hsplit <;> simp [greeting] at hsplit

/-- The greeting is posted, and the other side does not hear it. -/
theorem greeting_unheard : Introduced countingCrypto taggingLibrary sideName greeters ∧
    ¬ HeardAsSent countingCrypto taggingLibrary sideName [greeting, .deliver false] greeters := by
  refine ⟨introduced_greeters, fun hheard => ?_⟩
  have hlost : ((after (TalkEvent.run countingCrypto taggingLibrary sideName) [greeting]
      greeters).inFlight false).head?.any (fun m => (hear countingCrypto taggingLibrary sideName
        (after (TalkEvent.run countingCrypto taggingLibrary sideName) [greeting] greeters) false
        m.2).value? ≠ some (some m.1)) = true := by
    decide +kernel
  obtain ⟨m, hm, hne⟩ := Option.any_eq_true .. |>.mp hlost
  exact of_decide_eq_true hne (hheard [greeting] false [] rfl m hm)

/-- The keys that one of the greeters starts with. -/
def greeterKeys : ChainKeys := ⟨Bytes.replicate 32 0, Bytes.replicate 32 0⟩

theorem hasSession_greeter : HasSession "B" greeterKeys
    (computeSafetyNumber taggingLibrary "A" "B") (greeters.client true) :=
  ⟨rfl, rfl, rfl⟩

def historicGreeting : SdkEvent :=
  .send "hi" ⟨none, true, true⟩ (Bytes.replicate 12 0) (Bytes.replicate · 0)

theorem refused_history_readable :
    HistoryReadable countingCrypto taggingLibrary "B"
      [.send "hi" ⟨none, true, false⟩ (Bytes.replicate 12 0) (Bytes.replicate · 0)]
      (greeters.client true) := by
  refine (history_readable_iff countingCrypto documented_taggingLibrary (by decide)
    hasSession_greeter _).mpr ?_
  intro before e later hprefix m hm
  obtain ⟨hbefore, he⟩ : before = [] ∧
      e = .send "hi" ⟨none, true, false⟩ (Bytes.replicate 12 0) (Bytes.replicate · 0) := by
    rcases before with _ | ⟨e', before⟩
    · exact ⟨rfl, (List.cons_prefix_cons.mp hprefix).1⟩
    · simp [List.cons_prefix_cons] at hprefix
  -- the server did not accept the message
  rw [hbefore, he] at hm
  have hnone : (SdkEvent.logs countingCrypto taggingLibrary "B"
      (.send "hi" ⟨none, true, false⟩ (Bytes.replicate 12 0) (Bytes.replicate · 0))
      (greeters.client true)).isNone = true := by
    decide +kernel
  rw [Option.isNone_iff_eq_none] at hnone
  cases hnone.symm.trans hm

/-- As soon as the greeting is sent, the history cannot read it. -/
theorem greeting_unreadable : HasSession "B" greeterKeys
      (computeSafetyNumber taggingLibrary "A" "B") (greeters.client true) ∧
    ¬ HistoryReadable countingCrypto taggingLibrary "B" [historicGreeting] (greeters.client true) := by
  refine ⟨hasSession_greeter, fun hreadable => ?_⟩
  have hlost : (historicGreeting.logs countingCrypto taggingLibrary "B" (greeters.client true)).any
      (fun m => decryptHistorical countingCrypto taggingLibrary
        (after (SdkEvent.run countingCrypto taggingLibrary "B") [historicGreeting]
          (greeters.client true)) "B" m.iv m.ciphertext m.seq m.role ≠ m.text) = true := by
    decide +kernel
  obtain ⟨m, hm, hne⟩ := Option.any_eq_true .. |>.mp hlost
  exact of_decide_eq_true hne (hreadable [] historicGreeting [] List.prefix_rfl m hm).1

end AnonyMus.Python
