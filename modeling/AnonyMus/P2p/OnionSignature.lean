import AnonyMus.Lib.Base32
import AnonyMus.P2p.Deliverable
import AnonyMus.Python.Protocol

/-!
# Requests signed by an onion address

A v3 onion address is an Ed25519 key in base32. Two endpoints verify that a
request is signed with the key of its address: the upload of a file chunk to a
node (`transports/p2p/routers/files.py`) and the directory of the relay
(`transports/relay/routers/nodes.py`).

* `verifyP2pUploadSignature`, `verifyNodeSignature` — the code;
* `onionV3` — the address of a key, in lower case;
* `verify_onionV3` — both refuse every such address: it does not decode;
* `signature_exact_iff` — so they are right about what is not genuine, and wrong
  about what is.
-/

namespace AnonyMus.P2p

open Python

/-! ## The verifiers -/

/-- What the verifiers take from Python and from the `cryptography` package. -/
structure SignatureLibrary where
  /-- `datetime.fromisoformat`; none if it raises. -/
  fromIsoformat : String → Option Stamp
  /-- `f"{seconds:.0f}"` of a distance in microseconds. -/
  wholeSeconds : ℕ → String
  /-- `Ed25519PublicKey.from_public_bytes(key).verify(signature, message)` does not raise. -/
  verify : (key signature message : List UInt8) → Bool
  /-- `str` of what `b64decode` raises. -/
  errorText : PyError → String

section

variable (S : SignatureLibrary)

/-- `str.replace("Z", "+00:00")`. -/
def replaceZ (timestamp : String) : String :=
  String.ofList (timestamp.toList.flatMap fun c => if c = 'Z' then "+00:00".toList else [c])

/-- The moment that a stamp with an offset names, in microseconds. -/
def utcMicroseconds (s : Stamp) : Option ℤ :=
  s.offset.map fun offset => (s.wall.microseconds : ℤ) - offset * 1000000

/-- What follows the check of the address: `host` begins with its base32 part. The verifiers differ
in the message and in what they say of a bad signature. -/
def verifySigned (badSignature host timestamp signatureB64 message : String) (now : DateTime)
    (maxSkewSeconds : ℕ) : Except Failure Unit :=
  let pubkeyB32 := host.toList.take 56
  let padLen := (8 - pubkeyB32.length % 8) % 8
  match b32decode (pubkeyB32 ++ List.replicate padLen '=') with
  | none => .error (.http 400 "Could not decode onion address public key")
  | some pubkeyBytes =>
    if pubkeyBytes.length ≠ 35 then
      .error (.http 400 ("Decoded onion address must be 35 bytes (got " ++
        toString pubkeyBytes.length ++ ")"))
    else
      let ed25519Pubkey := pubkeyBytes.take 32
      match S.fromIsoformat (replaceZ timestamp) with
      | none => .error (.http 400 "Invalid timestamp format (expected ISO-8601)")
      | some ts =>
        match utcMicroseconds ts with
        -- a time with an offset and one without cannot be subtracted
        | none => .error .internal
        | some ts =>
          let skew := ((now.microseconds : ℤ) - ts).natAbs
          if maxSkewSeconds * 1000000 < skew then
            .error (.http 401 ("Timestamp skew " ++ S.wholeSeconds skew ++ "s exceeds allowed " ++
              toString maxSkewSeconds ++ "s"))
          else
            match b64decode (.text signatureB64.toList) with
            | .error e => .error (.http 400 ("Signature verification failed: " ++ S.errorText e))
            | .ok signature =>
              if S.verify ed25519Pubkey signature message.toUTF8.toList then .ok ⟨⟩
              else .error (.http 401 badSignature)

/-- The rest after `[a-z2-7]{56}\.onion`; none if the text does not begin so. -/
def afterOnionV3 (s : String) : Option (List Char) :=
  let label := s.toList.take 56
  let rest := s.toList.drop 56
  if label.length = 56 ∧ label.all isBase32 ∧ ".onion".toList <+: rest then
    some (rest.drop ".onion".length)
  else none

/-- `(?::([0-9]{1,5}))?$`, where `$` lets a final newline pass. -/
def isPortEnd : List Char → Bool
  | ':' :: rest =>
    let digits := rest.takeWhile Char.isDigit
    1 ≤ digits.length && digits.length ≤ 5 &&
      (rest.dropWhile Char.isDigit == [] || rest.dropWhile Char.isDigit == ['\n'])
  | rest => rest == [] || rest == ['\n']

/-- `_verify_p2p_upload_signature`; `now` is the UTC time. -/
def verifyP2pUploadSignature (chunkId timestamp signatureB64 senderOnion : String) (now : DateTime)
    (maxSkewSeconds : ℕ) : Except Failure Unit :=
  match (afterOnionV3 senderOnion).filter isPortEnd with
  | none => .error (.http 400 "Sender must be a v3 onion address (56 base32 chars + .onion)")
  | some _ =>
    let onionHost := String.ofList (senderOnion.toList.take 62)
    verifySigned S "Invalid Ed25519 signature" onionHost timestamp signatureB64
      (chunkId ++ "|" ++ timestamp) now maxSkewSeconds

def maxSkewSeconds : ℕ := 300

/-- `_verify_node_signature`. -/
def verifyNodeSignature (onionAddress timestamp signatureB64 : String) (now : DateTime) :
    Except Failure Unit :=
  match (afterOnionV3 onionAddress).filter fun rest => rest == [] || rest == ['\n'] with
  | none => .error (.http 400
      ("Invalid onion address format; expected 56 base32 chars + '.onion' " ++
        "(audit fix ANO-SEC-005)"))
  | some _ =>
    verifySigned S "Invalid Ed25519 signature; node identity not verified" onionAddress timestamp
      signatureB64 (onionAddress ++ "|" ++ timestamp) now maxSkewSeconds

end

/-! ## Addresses -/

/-- The characters before `.onion` in the address of a key: key, checksum and version, in lower
case. -/
def onionLabel (publicKey : Bytes 32) (checksum : Bytes 2) : List Char :=
  (b32encode (publicKey.1 ++ checksum.1 ++ [3])).map Char.toLower

def onionV3 (publicKey : Bytes 32) (checksum : Bytes 2) : String :=
  String.ofList (onionLabel publicKey checksum ++ ".onion".toList)

section

variable {publicKey : Bytes 32} {checksum : Bytes 2}

theorem length_addressBytes : (publicKey.1 ++ checksum.1 ++ [3]).length = 35 := by
  rw [List.length_append, List.length_append, publicKey.2, checksum.2]
  rfl

theorem length_onionLabel : (onionLabel publicKey checksum).length = 56 := by
  have hlength := @length_addressBytes publicKey checksum
  rw [onionLabel, List.length_map, length_b32encode (by rw [hlength]), hlength]

theorem isBase32_onionLabel : (onionLabel publicKey checksum).all isBase32 = true := by
  have hlower : (b32Alphabet.all fun c => isBase32 c.toLower) = true := by decide
  rw [List.all_eq_true]
  intro c hc
  obtain ⟨c', hc', rfl⟩ := List.mem_map.mp hc
  exact List.all_eq_true.mp hlower c' (mem_b32encode (by rw [length_addressBytes]) hc')

/-- The version makes the address end in `d`. -/
theorem d_mem_onionLabel : 'd' ∈ onionLabel publicKey checksum := by
  have hlast := getLast?_b32encode (l := publicKey.1 ++ checksum.1)
    (by rw [List.length_append, publicKey.2, checksum.2]) 3
  exact List.mem_map_of_mem (f := Char.toLower) (List.mem_of_getLast? hlast)

theorem take_onionV3 : (onionV3 publicKey checksum).toList.take 56 = onionLabel publicKey checksum := by
  rw [onionV3, String.toList_ofList, List.take_left' length_onionLabel]

theorem afterOnionV3_onionV3 : afterOnionV3 (onionV3 publicKey checksum) = some [] := by
  have hrest : (onionV3 publicKey checksum).toList.drop 56 = ".onion".toList := by
    rw [onionV3, String.toList_ofList, List.drop_left' length_onionLabel]
  unfold afterOnionV3
  dsimp only
  rw [take_onionV3, hrest, if_pos ⟨length_onionLabel, isBase32_onionLabel, List.prefix_rfl⟩]
  rfl

/-- Lower case is not decoded. -/
theorem verifySigned_onionV3 (S : SignatureLibrary) {host : String}
    (hhost : host.toList.take 56 = onionLabel publicKey checksum)
    (badSignature timestamp signatureB64 message : String) (now : DateTime) (maxSkewSeconds : ℕ) :
    verifySigned S badSignature host timestamp signatureB64 message now maxSkewSeconds =
      .error (.http 400 "Could not decode onion address public key") := by
  have hdecode : b32decode (onionLabel publicKey checksum ++ List.replicate
      ((8 - (onionLabel publicKey checksum).length % 8) % 8) '=') = none :=
    b32decode_eq_none (List.mem_append_left _ d_mem_onionLabel) (by decide) (by decide)
  unfold verifySigned
  dsimp only
  rw [hhost, hdecode]

theorem verifyP2pUploadSignature_onionV3 (S : SignatureLibrary)
    (chunkId timestamp signatureB64 : String) (now : DateTime) (maxSkewSeconds : ℕ) :
    verifyP2pUploadSignature S chunkId timestamp signatureB64 (onionV3 publicKey checksum) now
      maxSkewSeconds = .error (.http 400 "Could not decode onion address public key") := by
  unfold verifyP2pUploadSignature
  have hhost : (String.ofList ((onionV3 publicKey checksum).toList.take 62)).toList.take 56 =
      onionLabel publicKey checksum := by
    rw [String.toList_ofList, List.take_take]
    exact take_onionV3
  rw [afterOnionV3_onionV3]
  exact verifySigned_onionV3 S hhost _ _ _ _ _ _

theorem verifyNodeSignature_onionV3 (S : SignatureLibrary) (timestamp signatureB64 : String)
    (now : DateTime) :
    verifyNodeSignature S (onionV3 publicKey checksum) timestamp signatureB64 now =
      .error (.http 400 "Could not decode onion address public key") := by
  unfold verifyNodeSignature
  rw [afterOnionV3_onionV3]
  exact verifySigned_onionV3 S take_onionV3 _ _ _ _ _ _

end

/-! ## What is accepted -/

section

variable (S : SignatureLibrary)

/-- The timestamp has an offset and lies within the allowed skew. -/
def InWindow (timestamp : String) (now : DateTime) (maxSkewSeconds : ℕ) : Prop :=
  ∃ stamp ∈ S.fromIsoformat (replaceZ timestamp), ∃ ts ∈ utcMicroseconds stamp,
    ((now.microseconds : ℤ) - ts).natAbs ≤ maxSkewSeconds * 1000000

/-- The signature decodes and verifies under the key. -/
def Genuine (publicKey : Bytes 32) (signatureB64 message : String) : Prop :=
  ∃ signature, b64decode (.text signatureB64.toList) = .ok signature ∧
    S.verify publicKey.1 signature message.toUTF8.toList = true

/-- For the address of any key, each verifier accepts what is genuine and nothing else exactly when
the request is not genuine: both refuse every request. -/
theorem signature_exact_iff (publicKey : Bytes 32) (checksum : Bytes 2)
    (chunkId timestamp signatureB64 : String) (now : DateTime) (skewSeconds : ℕ) :
    ((InWindow S timestamp now skewSeconds →
        (verifyP2pUploadSignature S chunkId timestamp signatureB64 (onionV3 publicKey checksum) now
            skewSeconds = .ok ⟨⟩ ↔ Genuine S publicKey signatureB64 (chunkId ++ "|" ++ timestamp))) ↔
      ¬ (InWindow S timestamp now skewSeconds ∧
        Genuine S publicKey signatureB64 (chunkId ++ "|" ++ timestamp))) ∧
    ((InWindow S timestamp now maxSkewSeconds →
        (verifyNodeSignature S (onionV3 publicKey checksum) timestamp signatureB64 now = .ok ⟨⟩ ↔
          Genuine S publicKey signatureB64 (onionV3 publicKey checksum ++ "|" ++ timestamp))) ↔
      ¬ (InWindow S timestamp now maxSkewSeconds ∧
        Genuine S publicKey signatureB64 (onionV3 publicKey checksum ++ "|" ++ timestamp))) := by
  -- neither accepts anything, so what is left of the property is that nothing is genuine
  have hnever : ∀ {f : Failure}, ¬ (Except.error f : Except Failure Unit) = .ok ⟨⟩ := by
    intro f h
    cases h
  rw [verifyP2pUploadSignature_onionV3, verifyNodeSignature_onionV3]
  constructor
  · rw [iff_false_left hnever, not_and]
  · rw [iff_false_left hnever, not_and]

end

/-! ## An upload -/

/-- One moment, and signatures that are the key and the message. -/
def plainSignatures : SignatureLibrary where
  fromIsoformat s :=
    if s = "2023-11-15T09:30:05+00:00" then
      some ⟨aMoment, some 0⟩
    else none
  wholeSeconds _ := "0"
  verify key signature message := signature == key ++ message
  errorText _ := ""

/-- The signature of a message under the key of zeros. -/
def plainSignature (message : String) : String :=
  String.ofList (b64encode (List.replicate 32 0 ++ message.toUTF8.toList))

theorem genuine_plainSignature (message : String) :
    Genuine plainSignatures (Bytes.replicate 32 0) (plainSignature message) message := by
  refine ⟨List.replicate 32 0 ++ message.toUTF8.toList, ?_, ?_⟩
  · rw [plainSignature, String.toList_ofList, b64decode_b64encode]
  · exact beq_self_eq_true _

/-- A genuine upload is refused. -/
theorem upload_refused :
    ¬ (InWindow plainSignatures "2023-11-15T09:30:05Z" aMoment 300 →
      (verifyP2pUploadSignature plainSignatures "chunk" "2023-11-15T09:30:05Z"
          (plainSignature "chunk|2023-11-15T09:30:05Z")
          (onionV3 (Bytes.replicate 32 0) (Bytes.replicate 2 0)) aMoment 300 = .ok ⟨⟩ ↔
        Genuine plainSignatures (Bytes.replicate 32 0)
          (plainSignature "chunk|2023-11-15T09:30:05Z") ("chunk" ++ "|" ++ "2023-11-15T09:30:05Z"))) := by
  intro hexact
  have haccepted := (hexact ⟨_, rfl, _, rfl, by decide⟩).mpr (genuine_plainSignature _)
  rw [verifyP2pUploadSignature_onionV3] at haccepted
  cases haccepted

end AnonyMus.P2p
