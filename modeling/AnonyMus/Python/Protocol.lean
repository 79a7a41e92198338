import Mathlib.Algebra.Group.Int.Defs
import AnonyMus.Python.DoubleRatchet

/-!
# Python core — v2 messages

`core/protocol.py` and `core/queue_cryptobox.py`: a double ratchet message key
encrypts the padded text with AES-GCM, and a NaCl box goes around it. The
ratchet header travels outside the box.

* `padPlaintext`, `constructAad`, `encryptMessageV2` — a message out;
* `openPayload`, `readInner`, `decryptMessageV2` — a message in: what runs
  before the ratchet step, what runs after it, and all three;
* `decryptMessageV2_state` — only the ratchet step touches the session.
-/

namespace AnonyMus.Python

/-! ## Values and libraries -/

/-- A value of a decoded JSON object. -/
inductive Value
  | null
  | bool (b : Bool)
  | int (i : ℤ)
  | float (digits : List Char)
  | text (s : List Char)
  | list
  | dict
deriving DecidableEq

def Value.typeName : Value → String
  | .null => "NoneType"
  | .bool _ => "bool"
  | .int _ => "int"
  | .float _ => "float"
  | .text _ => "str"
  | .list => "list"
  | .dict => "dict"

/-- What the module takes from PyNaCl, `cryptography` and `hashlib`, and the
builtin `int`, which also reads text and floats. -/
structure Library where
  int : Value → Except PyError ℤ
  sha256 : List UInt8 → Bytes 32
  /-- `Box(PrivateKey(priv), PublicKey(pub)).encrypt`: the nonce, then the ciphertext. -/
  boxEncrypt : (priv pub plaintext nonce : List UInt8) → Except PyError (List UInt8)
  boxDecrypt : (priv pub combined : List UInt8) → Except PyError (List UInt8)
  aesgcmEncrypt : (key nonce data aad : List UInt8) → Except PyError (List UInt8)
  aesgcmDecrypt : (key nonce data aad : List UInt8) → Except PyError (List UInt8)

/-- `base64.b64decode`. -/
def b64decode : Value → Except PyError (List UInt8)
  | .text s =>
    if s.all fun c => c.toNat < 128 then
      match a2bBase64 0 0 0 [] s with
      | .ok data => .ok data
      | .error msg => .error (.valueError msg)
    else .error (.valueError "string argument should contain only ASCII characters")
  | v => .error (.typeError
      ("argument should be a bytes-like object or ASCII string, not '" ++ v.typeName ++ "'"))

theorem b64decode_b64encode (l : List UInt8) : b64decode (.text (b64encode l)) = .ok l := by
  rw [b64decode, if_pos (b64encode_ascii l), a2bBase64_b64encode]
  rfl

/-- `payload[key]`. -/
def item (payload : Dict String Value) (key : String) : Except PyError Value :=
  match payload.get? key with
  | some v => .ok v
  | none => .error (.keyError key)

/-- `struct.pack(">I", x)`. -/
def packU32 (x : ℤ) : Except PyError (List UInt8) :=
  if 0 ≤ x ∧ x < 2 ^ 32 then .ok (be32 (UInt32.ofNat x.toNat))
  else .error (.structError "argument out of range")

/-- `struct.unpack(">I", data)[0]`. -/
def unpackU32 (data : List UInt8) : Except PyError ℕ :=
  if data.length = 4 then .ok (ofBe32 data).toNat
  else .error (.structError "unpack requires a buffer of 4 bytes")

/-- `bytes([x])`. -/
def byteOf (x : ℤ) : Except PyError (List UInt8) :=
  if 0 ≤ x ∧ x < 256 then .ok [UInt8.ofNat x.toNat]
  else .error (.valueError "bytes must be in range(0, 256)")

/-- `data.decode("utf-8")`. -/
def decodeUtf8 (data : List UInt8) : Except PyError String :=
  match String.fromUTF8? ⟨data.toArray⟩ with
  | some text => .ok text
  | none => .error (.unicodeError "'utf-8' codec can't decode bytes")

theorem decodeUtf8_toUTF8 (s : String) : decodeUtf8 s.toUTF8.toList = .ok s := by
  have hvalid : s.toUTF8.IsValidUTF8 := s.isValidUTF8
  unfold decodeUtf8
  rw [mk_toList, String.fromUTF8?, dif_pos hvalid]
  rfl

namespace QueueCryptobox

variable (L : Library)

/-- The ciphertext without the nonce that the box puts in front, and the nonce. -/
def encrypt (plaintext senderPrivateKey recipientPublicKey : List UInt8) (nonce : Bytes 24) :
    Except PyError (List UInt8 × List UInt8) := do
  let combined ← L.boxEncrypt senderPrivateKey recipientPublicKey plaintext nonce.1
  return (combined.drop 24, nonce.1)

def decrypt (ciphertext nonce senderPublicKey recipientPrivateKey : List UInt8) :
    Except PyError (List UInt8) :=
  L.boxDecrypt recipientPrivateKey senderPublicKey (nonce ++ ciphertext)

end QueueCryptobox

/-! ## Messages -/

def paddedSize : ℕ := 2048

def constructAad (L : Library) (role : String) (seqNum : ℤ) (sessionId : String)
    (protocolVersion : ℤ) : Except PyError (List UInt8) := do
  let roleByte := role.toUTF8.toList.take 1
  if protocolVersion = 1 then
    return roleByte ++ (← packU32 seqNum)
  let sessionHash := L.sha256 sessionId.toUTF8.toList
  let truncatedSession := sessionHash.1.take 16
  return roleByte ++ (← packU32 seqNum) ++ truncatedSession ++ (← byteOf protocolVersion)

/-- The length of the text, the text, and noise up to a multiple of the padded size. -/
def padPlaintext (text : String) (urandom : (n : ℕ) → Bytes n) : Except PyError (List UInt8) := do
  let textBytes := text.toUTF8.toList
  let textLen := textBytes.length
  let paddedLen := if paddedSize < textLen + 4 then
      (textLen + 4 + paddedSize - 1) / paddedSize * paddedSize
    else paddedSize
  let header ← packU32 textLen
  return header ++ textBytes ++ (urandom (paddedLen - textLen - 4)).1

section

variable {Priv : Type} (C : Crypto Priv) (L : Library)

/-- `iv`, `nonce` and `urandom` are what the random generator returns. -/
def encryptMessageV2 (plaintext role sessionId : String)
    (myPrivateKey peerPublicKey : List UInt8) (iv : Bytes 12) (nonce : Bytes 24)
    (urandom : (n : ℕ) → Bytes n) :
    EStateM PyError (DoubleRatchetSession Priv) (Dict String Value) := do
  let (msgKey, drPub, drSeq, drPn) ← encrypt C
  let paddedData ← ofExcept (padPlaintext plaintext urandom)
  let aad ← ofExcept (constructAad L role drSeq sessionId 2)
  let innerCiphertext ← ofExcept (L.aesgcmEncrypt msgKey.1 iv.1 paddedData aad)
  let (boxCiphertext, boxNonce) ← ofExcept
    (QueueCryptobox.encrypt L (iv.1 ++ innerCiphertext) myPrivateKey peerPublicKey nonce)
  return Dict.empty.insert "nacl_nonce" (.text (b64encode boxNonce))
    |>.insert "nacl_ciphertext" (.text (b64encode boxCiphertext))
    |>.insert "dr_dh_public" (.text (b64encode drPub.1))
    |>.insert "dr_seq" (.int drSeq)
    |>.insert "dr_pn" (.int drPn)

/-- A payload with its outer layer removed: the ratchet header and the inner payload. -/
structure Opened where
  drPub : List UInt8
  drSeq : ℤ
  drPn  : ℤ
  inner : List UInt8

/-- What `decrypt_message_v2` does before it steps the ratchet. -/
def openPayload (payload : Dict String Value) (myPrivateKey peerPublicKey : List UInt8) :
    Except PyError Opened := do
  let boxNonce ← b64decode (← item payload "nacl_nonce")
  let boxCiphertext ← b64decode (← item payload "nacl_ciphertext")
  let drPub ← b64decode (← item payload "dr_dh_public")
  let drSeq ← L.int (← item payload "dr_seq")
  let drPn ← L.int (← item payload "dr_pn")
  let inner ← QueueCryptobox.decrypt L boxCiphertext boxNonce peerPublicKey myPrivateKey
  return ⟨drPub, drSeq, drPn, inner⟩

/-- What `decrypt_message_v2` does with the message key. -/
def readInner (opened : Opened) (msgKey : List UInt8) (role sessionId : String) :
    Except PyError String := do
  let iv := opened.inner.take 12
  let innerCiphertext := opened.inner.drop 12
  let aad ← constructAad L role opened.drSeq sessionId 2
  let decrypted ← L.aesgcmDecrypt msgKey iv innerCiphertext aad
  let textLen ← unpackU32 (decrypted.take 4)
  if (decrypted.length : ℤ) - 4 < textLen then
    throw (.valueError "Decrypted length header exceeds message buffer bounds.")
  decodeUtf8 ((decrypted.drop 4).take textLen)

def decryptMessageV2 (payload : Dict String Value) (role sessionId : String)
    (myPrivateKey peerPublicKey : List UInt8) (generated : Priv) :
    EStateM PyError (DoubleRatchetSession Priv) String := do
  let opened ← ofExcept (openPayload L payload myPrivateKey peerPublicKey)
  let msgKey ← decrypt C opened.drPub opened.drSeq opened.drPn generated
  ofExcept (readInner L opened msgKey role sessionId)

/-- Only the ratchet step touches the session, and only once the payload is open. -/
theorem decryptMessageV2_state (payload : Dict String Value) (role sessionId : String)
    (myPrivateKey peerPublicKey : List UInt8) (generated : Priv) (s : DoubleRatchetSession Priv) :
    (decryptMessageV2 C L payload role sessionId myPrivateKey peerPublicKey generated s).state =
      match openPayload L payload myPrivateKey peerPublicKey with
      | .ok opened => (decrypt C opened.drPub opened.drSeq opened.drPn generated s).state
      | .error _ => s := by
  rw [decryptMessageV2, EStateM.apply_bind]
  cases openPayload L payload myPrivateKey peerPublicKey with
  | error e => rfl
  | ok opened =>
    rw [EStateM.apply_ofExcept_ok]
    dsimp only
    rw [EStateM.apply_bind]
    cases decrypt C opened.drPub opened.drSeq opened.drPn generated s with
    | error e s' => rfl
    | ok msgKey s' =>
      dsimp only
      rw [EStateM.apply_ofExcept]
      cases readInner L opened msgKey role sessionId <;> rfl

end

end AnonyMus.Python
