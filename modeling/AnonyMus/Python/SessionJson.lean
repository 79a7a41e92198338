import AnonyMus.Python.Protocol

/-!
# Python core — the stored form of a session

`to_json` and `from_json` of `core/double_ratchet.py`. A private key object
stands for its 32 bytes.

* `fromJson_toJson` — a stored session is read back, unless its root key is empty.
-/

namespace AnonyMus.Python

/-- The object that `to_json` turns into text. `json.loads` returns what
`json.dumps` was given: text, numbers, and entries in their order. -/
structure SessionJson where
  dhPrivateB64         : Option (List Char)
  dhRemoteB64          : Option (List Char)
  rootKeyHex           : Option (List Char)
  sendingChainKeyHex   : Option (List Char)
  receivingChainKeyHex : Option (List Char)
  seqSend              : ℕ
  seqRecv              : ℕ
  prevChainLength      : ℕ
  skippedMessageKeys   : Dict (List Char) (List Char)

/-- `key.hex() if key else None`, for a key that may be empty. -/
def hexUnlessEmpty : Option (List UInt8) → Option (List Char)
  | some (b :: rest) => some (toHex (b :: rest))
  | _ => none

def toJson (s : DoubleRatchetSession (Bytes 32)) : SessionJson where
  dhPrivateB64 := s.dhPrivate.map fun key => b64encode key.1
  dhRemoteB64 := s.dhRemote.map fun key => b64encode key.1
  rootKeyHex := hexUnlessEmpty s.rootKey
  sendingChainKeyHex := s.sendingChainKey.map fun key => toHex key.1
  receivingChainKeyHex := s.receivingChainKey.map fun key => toHex key.1
  seqSend := s.seqSend
  seqRecv := s.seqRecv
  prevChainLength := s.prevChainLength
  skippedMessageKeys := s.skippedMessageKeys

/-- `X25519PrivateKey.from_private_bytes`. -/
def fromPrivateBytes (data : List UInt8) : Except PyError (Bytes 32) :=
  if h : data.length = 32 then .ok ⟨data, h⟩
  else .error (.valueError "An X25519 private key is 32 bytes long")

/-- A chain key. `to_json` writes no other length, and a session has no place for one. -/
def chainKeyOfHex (text : List Char) : Except PyError (Bytes 32) := do
  let data ← bytesFromHex text
  if h : data.length = 32 then return ⟨data, h⟩
  else throw (.valueError "not a chain key")

/-- `if text: ... = read(text)`: neither `None` nor an empty text is read. -/
def readField {α : Type} (read : List Char → Except PyError α) :
    Option (List Char) → Except PyError (Option α)
  | some (c :: rest) => do return some (← read (c :: rest))
  | _ => return none

def fromJson (data : SessionJson) : Except PyError (DoubleRatchetSession (Bytes 32)) := do
  let dhPrivate ← readField (fun text => do fromPrivateBytes (← b64decode (.text text)))
    data.dhPrivateB64
  let dhRemote ← readField (fun text => do fromPublicBytes (← b64decode (.text text)))
    data.dhRemoteB64
  let rootKey ← readField bytesFromHex data.rootKeyHex
  let sendingChainKey ← readField chainKeyOfHex data.sendingChainKeyHex
  let receivingChainKey ← readField chainKeyOfHex data.receivingChainKeyHex
  return { dhPrivate, dhRemote, rootKey, sendingChainKey, receivingChainKey
           seqSend := data.seqSend
           seqRecv := data.seqRecv
           prevChainLength := data.prevChainLength
           skippedMessageKeys := data.skippedMessageKeys }

theorem readField_some {α : Type} {read : List Char → Except PyError α} {text : List Char} {x : α}
    (hne : text ≠ []) (hread : read text = .ok x) : readField read (some text) = .ok (some x) := by
  obtain ⟨c, rest, rfl⟩ := List.exists_cons_of_ne_nil hne
  rw [readField, hread]
  rfl

/-- What is written as a text that is not empty is read back. -/
theorem readField_map {α : Type} (read : List Char → Except PyError α) (write : α → List Char)
    (hread : ∀ x, read (write x) = .ok x) (hne : ∀ x, write x ≠ []) (field : Option α) :
    readField read (field.map write) = .ok field := by
  cases field with
  | none => rfl
  | some x => exact readField_some (hne x) (hread x)

theorem ne_nil_of_length {n : ℕ} (hn : 0 < n) (key : Bytes n) : key.1 ≠ [] := by
  intro h
  have hlen := key.2
  rw [h] at hlen
  exact absurd hlen (Nat.ne_of_lt hn)

theorem chainKeyOfHex_toHex (key : Bytes 32) : chainKeyOfHex (toHex key.1) = .ok key := by
  rw [chainKeyOfHex, bytesFromHex, fromHex_toHex]
  exact dif_pos key.2

/-- **Round trip.** A session is read back as it was stored, unless its root key
is the empty string. -/
theorem fromJson_toJson {s : DoubleRatchetSession (Bytes 32)} (hroot : s.rootKey ≠ some []) :
    fromJson (toJson s) = .ok s := by
  have hprivate := readField_map (fun text => do fromPrivateBytes (← b64decode (.text text)))
    (fun key : Bytes 32 => b64encode key.1)
    (fun key => by
      rw [b64decode_b64encode]
      exact dif_pos key.2)
    (fun key h => ne_nil_of_length (by decide) key (b64encode_eq_nil_iff.mp h)) s.dhPrivate
  have hremote := readField_map (fun text => do fromPublicBytes (← b64decode (.text text)))
    (fun key : Bytes 32 => b64encode key.1)
    (fun key => by
      rw [b64decode_b64encode]
      exact dif_pos key.2)
    (fun key h => ne_nil_of_length (by decide) key (b64encode_eq_nil_iff.mp h)) s.dhRemote
  have hrootKey : readField bytesFromHex (hexUnlessEmpty s.rootKey) = .ok s.rootKey := by
    rcases hkey : s.rootKey with _ | _ | ⟨b, rest⟩
    · rfl
    · exact absurd hkey hroot
    · refine readField_some (fun h => absurd (toHex_eq_nil_iff.mp h) (List.cons_ne_nil b rest)) ?_
      rw [bytesFromHex, fromHex_toHex]
  have hchain := readField_map _ _ chainKeyOfHex_toHex
    (fun key h => ne_nil_of_length (by decide) key (toHex_eq_nil_iff.mp h))
  unfold fromJson toJson
  dsimp only
  rw [hprivate, hremote, hrootKey, hchain, hchain]
  rfl


end AnonyMus.Python
