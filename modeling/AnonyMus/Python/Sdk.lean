import Mathlib.Data.String.Basic
import AnonyMus.Python.Protocol

/-!
# Python core — the client SDK

`AnonyMusClient` of `core/sdk.py` with what it uses of `core/protocol.py`: two
symmetric key chains for each contact, derived from a shared secret, one step of
which gives the key of one message.

* `computeSafetyNumber`, `encryptMessage`, `decryptMessage` — the protocol;
* `initContactSession`, `getMessages`, `sendMessage`, `decryptIncoming` — the
  client;
* `decryptMessage_encryptMessage` — a message is read with the key, role and
  session it was written with, and with no others.
-/

namespace AnonyMus.Python

open EStateM

/-! ## Protocol -/

/-- `derive_chain_keys`. -/
structure ChainStep where
  messageKey   : Bytes 32
  nextChainKey : Bytes 32

section

variable {Priv : Type} (C : Crypto Priv) (L : Library)

/-- `hkdf_derive`: a shorter output of HKDF is the beginning of a longer one. -/
def hkdfDerive (ikm info salt : List UInt8) : Bytes 32 :=
  ⟨(C.hkdf salt info ikm).1.take 32, by rw [List.length_take, (C.hkdf salt info ikm).2]; rfl⟩

def deriveChainKeys (chainKey : Bytes 32) : ChainStep where
  messageKey   := (chainRatchet C chainKey).1
  nextChainKey := (chainRatchet C chainKey).2

/-- The number of values in each 5-digit group. -/
def modulus : ℕ := 100000

/-- The largest multiple of the modulus that fits in 32 bits. -/
def maxAccepted : ℕ := 2 ^ 32 / modulus * modulus

/-- The eight 4-byte windows of a hash of the chain. -/
def hashWindows (data : List UInt8) (counter : ℕ) : List ℕ :=
  let h := (L.sha256 (data ++ be32 (UInt32.ofNat counter))).1
  (List.range 8).map fun i => (ofBe32 ((h.drop (4 * i)).take 4)).toNat

/-- `str(val % MODULUS).zfill(5)`. -/
def groupOf (val : ℕ) : String :=
  String.ofList (List.leftpad 5 '0' (toString (val % modulus)).toList)

/-- Append the groups of these windows, and stop at twelve. -/
def fillGroups (groups : List String) (vals : List ℕ) : List String :=
  (groups ++ vals.map groupOf).take 12

/-- The fallback, in at most `fuel` rounds. -/
def biasedGroups (data : List UInt8) : (fuel counter : ℕ) → List String → List String
  | 0, _, groups => groups
  | fuel + 1, counter, groups =>
    if 12 ≤ groups.length then groups
    else biasedGroups data fuel (counter + 1) (fillGroups groups (hashWindows L data counter))

/-- The sampling loop, with the rounds that are left before the fallback. -/
def safetyGroups (data : List UInt8) : (rounds counter : ℕ) → List String → List String
  -- two hashes have windows enough for the twelve groups
  | 0, counter, groups => biasedGroups L data 2 counter groups
  | rounds + 1, counter, groups =>
    if 12 ≤ groups.length then groups
    else safetyGroups data rounds (counter + 1)
      (fillGroups groups ((hashWindows L data counter).filter (· < maxAccepted)))

/-- `sorted` of two texts. -/
def sortedPair (a b : String) : String × String := if b < a then (b, a) else (a, b)

def computeSafetyNumber (pubkey1B64 pubkey2B64 : String) : String :=
  let sortedKeys := sortedPair pubkey1B64 pubkey2B64
  let data := (sortedKeys.1 ++ sortedKeys.2).toUTF8.toList
  " ".intercalate (safetyGroups L data 1001 0 [])

theorem sortedPair_comm {a b : String} : sortedPair a b = sortedPair b a := by
  unfold sortedPair
  rcases lt_trichotomy a b with h | rfl | h
  · rw [if_neg h.asymm, if_pos h]
  · rfl
  · rw [if_pos h, if_neg h.asymm]

theorem computeSafetyNumber_comm (a b : String) :
    computeSafetyNumber L a b = computeSafetyNumber L b a := by
  unfold computeSafetyNumber
  rw [sortedPair_comm]

/-- The `iv` and the `ciphertext` of an encrypted message, in base64. -/
structure Encrypted where
  iv         : List Char
  ciphertext : List Char

/-- `iv` and `urandom` are what the random generator returns. -/
def encryptMessage (messageKey : Bytes 32) (plaintext role : String) (seqNum : ℤ)
    (sessionId : String) (iv : Bytes 12) (urandom : (n : ℕ) → Bytes n) :
    Except PyError Encrypted := do
  let paddedData ← padPlaintext plaintext urandom
  let aad ← constructAad L role seqNum sessionId 2
  let ciphertext ← L.aesgcmEncrypt messageKey.1 iv.1 paddedData aad
  return ⟨b64encode iv.1, b64encode ciphertext⟩

/-- `decrypt_message` without a v2 payload. -/
def decryptMessage (key : Bytes 32) (ivB64 ctB64 : Value) (role : String) (seqNum : ℤ)
    (sessionId : String) : Except PyError String := do
  let iv ← b64decode ivB64
  let ciphertext ← b64decode ctB64
  let aad ← constructAad L role seqNum sessionId 2
  let decrypted ← L.aesgcmDecrypt key.1 iv ciphertext aad
  let textLen ← unpackU32 (decrypted.take 4)
  if (decrypted.length : ℤ) - 4 < textLen then
    throw (.valueError "Decrypted length header exceeds message bounds.")
  decodeUtf8 ((decrypted.drop 4).take textLen)

end

/-! ## Client -/

structure ChainKeys where
  sendChainKey : Bytes 32
  recvChainKey : Bytes 32

/-- The keys and the login state of `AnonyMusClient`. -/
structure AnonyMusClient where
  isLoggedIn   : Bool
  publicKeyB64 : String
  chainKeys    : Dict String ChainKeys
  sessionIds   : Dict String String

/-- A contact as the server lists it, once it has a shared secret. -/
structure SdkContact where
  onionAddress  : String
  sharedSecret  : String
  peerPublicKey : String
  myPublicKey   : Option String

/-- A stored message as the server lists it. `message` is the JSON object in its text, unless
`json.loads` raises or the text is something else. -/
structure StoredMessage where
  sender    : String
  message   : Option (Dict String Value)
  timestamp : ℤ

structure DecryptedMessage where
  sender    : String
  text      : String
  timestamp : ℤ
  seq       : ℤ
deriving DecidableEq

/-- What `send_message` posts. -/
structure Posted where
  onionAddress : String
  payload      : Encrypted
  seq          : ℕ

/-- How the server answers the requests of one `send_message`: `history` is the list of stored
messages, if that request succeeds. -/
structure SendAnswers where
  history  : Option (List StoredMessage)
  page     : Bool
  accepted : Bool

section

variable {Priv : Type} (C : Crypto Priv) (L : Library)

/-- `str(e)`. -/
def PyError.str : PyError → String
  | valueError msg | typeError msg | structError msg | unicodeError msg | cryptoError msg => msg
  | keyError key => "'" ++ key ++ "'"
  | invalidTag => ""

def labelClient : List UInt8 := "AnonyMus-Client-To-Server-Key".toUTF8.toList
def labelServer : List UInt8 := "AnonyMus-Server-To-Client-Key".toUTF8.toList

/-- `contact.get("my_public_key") or self.public_key_b64`. -/
def ownKey (myPublicKey : Option String) (client : AnonyMusClient) : String :=
  match myPublicKey with
  | some key => if key = "" then client.publicKeyB64 else key
  | none => client.publicKeyB64

def initContactSession (contact : SdkContact) : EStateM PyError AnonyMusClient Unit := do
  let client ← get
  let myPubB64 := ownKey contact.myPublicKey client
  let sharedSecretBytes ← ofExcept (b64decode (.text contact.sharedSecret.toList))
  let salt := List.replicate 32 0
  let clientChain := hkdfDerive C sharedSecretBytes labelClient salt
  let serverChain := hkdfDerive C sharedSecretBytes labelServer salt
  let isAlice := decide (myPubB64 < contact.peerPublicKey)
  set { client with
    chainKeys := client.chainKeys.insert contact.onionAddress {
      sendChainKey := if isAlice then clientChain else serverChain
      recvChainKey := if isAlice then serverChain else clientChain }
    sessionIds := client.sessionIds.insert contact.onionAddress
      (computeSafetyNumber L myPubB64 contact.peerPublicKey) }

/-- The message key after `steps` steps of a chain; unbound after none. -/
def stepKeys (chainKey : Bytes 32) : (steps : ℕ) → Option (Bytes 32)
  | 0 => none
  | 1 => some (deriveChainKeys C chainKey).messageKey
  | steps + 2 => stepKeys (deriveChainKeys C chainKey).nextChainKey (steps + 1)

/-- `dict[key]`, of session ids. -/
def AnonyMusClient.sessionId (client : AnonyMusClient) (onion : String) : Except PyError String :=
  match client.sessionIds.get? onion with
  | some sessionId => .ok sessionId
  | none => .error (.keyError onion)

/-- The `try` block of `decrypt_historical`. -/
def historicalText (client : AnonyMusClient) (keys : ChainKeys) (onion : String) (iv ciphertext : Value)
    (seq : ℤ) (role : String) : Except PyError String := do
  let rootKey := if role = "me" then keys.sendChainKey else keys.recvChainKey
  match stepKeys C rootKey (seq + 1).toNat with
  | none =>
    let _ ← client.sessionId onion
    throw (.valueError "cannot access local variable 'message_key' where it is not associated with a value")
  | some messageKey =>
    let sessionId ← client.sessionId onion
    decryptMessage L messageKey iv ciphertext role seq sessionId

/-- The text, or what the `except` clause of `decrypt_historical` returns. -/
def textOrError : Except PyError String → String
  | .ok text => text
  | .error e => "[Decryption Error: " ++ e.str ++ "]"

def decryptHistorical (client : AnonyMusClient) (onion : String) (iv ciphertext : Value) (seq : ℤ)
    (role : String) : String :=
  match client.chainKeys.get? onion with
  | none => "[No Session Keys]"
  | some keys => textOrError (historicalText C L client keys onion iv ciphertext seq role)

/-- `payload.get(key)`. -/
def payloadGet (payload : Dict String Value) (key : String) : Value := (payload.get? key).getD .null

/-- The body of the loop of `get_messages`. -/
def showMessage (client : AnonyMusClient) (onion : String) (m : StoredMessage) : DecryptedMessage :=
  match m.message with
  | none => ⟨m.sender, "[Decryption Failure]", m.timestamp, 0⟩
  | some payload =>
    match L.int ((payload.get? "seq").getD (.int 0)) with
    | .error _ => ⟨m.sender, "[Decryption Failure]", m.timestamp, 0⟩
    | .ok seq =>
      let role := if m.sender = "me" then "me" else "peer"
      let text := decryptHistorical C L client onion (payloadGet payload "iv")
        (payloadGet payload "ciphertext") seq role
      ⟨m.sender, text, m.timestamp, seq⟩

def getMessages (client : AnonyMusClient) (onion : String) (history : Option (List StoredMessage)) :
    List DecryptedMessage :=
  if client.isLoggedIn then (history.getD []).map (showMessage C L client onion) else []

/-- `iv` and `urandom` are what the random generator returns. The answer comes with what is
posted. -/
def sendMessage (onion text : String) (answers : SendAnswers) (iv : Bytes 12)
    (urandom : (n : ℕ) → Bytes n) : EStateM PyError AnonyMusClient (Bool × Option Posted) := do
  let client ← get
  if ¬ client.isLoggedIn then return (false, none)
  match client.chainKeys.get? onion with
  | none => return (false, none)
  | some keys =>
    let seq := (getMessages C L client onion answers.history).length
    let ratchetStep := deriveChainKeys C keys.sendChainKey
    set { client with chainKeys :=
      client.chainKeys.insert onion { keys with sendChainKey := ratchetStep.nextChainKey } }
    let encrypted := do
      encryptMessage L ratchetStep.messageKey text "me" seq (← client.sessionId onion) iv urandom
    match encrypted with
    -- the `except` clause
    | .error _ => return (false, none)
    | .ok payload =>
      if answers.page then return (answers.accepted, some ⟨onion, payload, seq⟩)
      else return (false, none)

def decryptIncoming (senderOnion : String) (iv ciphertext : Value) (seq : ℤ) :
    EStateM PyError AnonyMusClient (Option String) := do
  let client ← get
  match client.chainKeys.get? senderOnion with
  | none => return none
  | some keys =>
    let ratchetStep := deriveChainKeys C keys.recvChainKey
    set { client with chainKeys :=
      client.chainKeys.insert senderOnion { keys with recvChainKey := ratchetStep.nextChainKey } }
    let decrypted := do
      decryptMessage L ratchetStep.messageKey iv ciphertext "peer" seq (← client.sessionId senderOnion)
    match decrypted with
    | .error _ => return none
    | .ok text => return some text

end

end AnonyMus.Python
