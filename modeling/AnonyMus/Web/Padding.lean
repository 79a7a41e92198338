import AnonyMus.Lib.Utf8
import AnonyMus.Python.Conversation
import AnonyMus.Web.DoubleRatchet

/-!
# Web client and Python core — padded texts

`pad_plaintext` and the end of `decrypt_message_v2` in `core/protocol.py`, and what
`encrypt` and `decrypt` of `crypto.ts` do with the text. Python divides to find
the length, the web client adds blocks in a loop; each has its own decoder, and the
web client's `TextDecoder` drops a byte order mark.

* `padBuffer`, `padBuffer_eq` — the buffer as `encrypt` fills it, which is `pad`;
* `Python.unpad`, `unpad` — the two decoders;
* `leastBlock_pad`, `leastBlock_padPlaintext` — both lengths are the least that do;
* `unpad_error`, `Python.unpad_error` — a length beyond the end is refused;
* `roundTrips_iff` — texts come back exactly if they do not begin with the mark.
-/

namespace AnonyMus

namespace Python

/-- What `decrypt_message_v2` does with the decrypted bytes. -/
def unpad (decrypted : List UInt8) : Except PyError String := do
  let textLen ← unpackU32 (decrypted.take 4)
  if (decrypted.length : ℤ) - 4 < textLen then
    throw (.valueError "Decrypted length header exceeds message buffer bounds.")
  decodeUtf8 ((decrypted.drop 4).take textLen)

end Python

namespace Web

open Python (PyError padPlaintext packU32 paddedSize)

/-! ## The buffers -/

/-- The `while` that adds blocks, none if it has not ended after `fuel` rounds. -/
def blockLoop (len : ℕ) : (fuel blockSize : ℕ) → Option ℕ
  | 0, _ => none
  | fuel + 1, blockSize =>
    if len + 4 > blockSize then blockLoop len fuel (blockSize + 2048) else some blockSize

/-- `Uint8Array.prototype.set`, of something that fits. -/
def setAt (buffer : List UInt8) (offset : ℕ) (data : List UInt8) : List UInt8 :=
  buffer.take offset ++ data ++ buffer.drop (offset + data.length)

/-- The padding of `encrypt`. -/
def padBuffer (plaintext : String) (random : (n : ℕ) → Bytes n) (fuel : ℕ) :
    Option (List UInt8) := do
  let textBytes := plaintext.toUTF8.toList
  let len := textBytes.length
  let blockSize ← blockLoop len fuel 2048
  let padded := List.replicate blockSize 0
  let padded := setAt padded 0 (be32 (UInt32.ofNat len))
  let padded := setAt padded 4 textBytes
  if len + 4 < blockSize then
    let randBytes := (random (blockSize - 4 - len)).1
    return setAt padded (4 + len) randBytes
  return padded

/-- What `decrypt` does with the decrypted bytes. -/
def unpad (textDecode : List UInt8 → String) (decryptedBytes : List UInt8) :
    Except JsError String := do
  if decryptedBytes.length < 4 then
    throw .rangeError
  let len := (ofBe32 (decryptedBytes.take 4)).toNat
  if (decryptedBytes.length : ℤ) - 4 < len then
    throw (.error "Decrypted length header exceeds message buffer bounds.")
  return textDecode ((decryptedBytes.drop 4).take len)

theorem openText_eq (W : Platform) (messageKey iv ciphertext : List UInt8) :
    openText W messageKey iv ciphertext =
      (aeadDecrypt W messageKey (iv ++ ciphertext) >>= unpad W.textDecode) :=
  rfl

/-! ## Lengths -/

/-- The least positive multiple of 2048 that has room for a length field and so many
bytes. -/
structure LeastBlock (len n : ℕ) : Prop where
  pos   : 0 < n
  block : 2048 ∣ n
  fits  : len + 4 ≤ n
  least : ∀ k, 2048 ∣ k → len + 4 ≤ k → n ≤ k

theorem LeastBlock.unique {len n k : ℕ} (hn : LeastBlock len n) (hk : LeastBlock len k) :
    n = k :=
  le_antisymm (hn.least k hk.block hk.fits) (hk.least n hn.block hn.fits)

/-- The ceiling. -/
theorem leastBlock_ceil (len : ℕ) : LeastBlock len ((len + 4 + 2047) / 2048 * 2048) where
  pos := by omega
  block := Nat.dvd_mul_left 2048 _
  fits := by omega
  least := by
    rintro _ ⟨k, rfl⟩ hfits
    omega

/-- The loop stops at the first multiple that has room. -/
theorem blockLoop_eq {len fuel k : ℕ} (hbefore : 2048 * k < len + 4)
    (hfuel : len + 4 ≤ 2048 * (k + fuel)) :
    blockLoop len fuel (2048 * k + 2048) = some ((len + 4 + 2047) / 2048 * 2048) := by
  induction fuel generalizing k with
  | zero => omega
  | succ fuel ih =>
    rw [blockLoop]
    split_ifs with hmore
    · have hnext : 2048 * (k + 1) < len + 4 := by omega
      exact ih hnext (by omega)
    · congr 1
      omega

section

variable {text : String} {random urandom : (n : ℕ) → Bytes n}

/-- The text is written after the length, and the random bytes after the text. -/
theorem setAt_replicate {n : ℕ} {header data noise : List UInt8} (hheader : header.length = 4)
    (hn : 4 + data.length + noise.length = n) :
    setAt (setAt (setAt (List.replicate n 0) 0 header) 4 data) (4 + data.length) noise =
      header ++ data ++ noise := by
  have hfirst : setAt (List.replicate n 0) 0 header =
      header ++ List.replicate (data.length + noise.length) 0 := by
    unfold setAt
    rw [hheader, List.take_zero, List.nil_append, List.drop_replicate]
    congr 2
    omega
  have hsecond : setAt (header ++ List.replicate (data.length + noise.length) 0) 4 data =
      header ++ data ++ List.replicate noise.length 0 := by
    unfold setAt
    rw [List.take_left' hheader, ← hheader, List.drop_append, List.drop_replicate]
    congr 1
    simp
  have hlength : (header ++ data).length = 4 + data.length := by
    rw [List.length_append, hheader]
  rw [hfirst, hsecond]
  unfold setAt
  rw [List.take_left' hlength, ← hlength, List.drop_append]
  simp

/-- `encrypt` fills its buffer with what `pad` puts together. -/
theorem padBuffer_eq {fuel : ℕ} (hfuel : text.toUTF8.toList.length < fuel) :
    padBuffer text random fuel = some (pad text random) := by
  have hloop : blockLoop text.toUTF8.toList.length fuel 2048 = _ :=
    @blockLoop_eq text.toUTF8.toList.length fuel 0 (by omega) (by omega)
  have hheader : (be32 (UInt32.ofNat text.toUTF8.toList.length)).length = 4 := length_be32 _
  have hfits := (leastBlock_ceil text.toUTF8.toList.length).fits
  unfold padBuffer pad
  dsimp only
  rw [hloop]
  generalize (text.toUTF8.toList.length + 4 + 2047) / 2048 * 2048 = blockSize at hfits ⊢
  have hnoise := (random (blockSize - 4 - text.toUTF8.toList.length)).2
  have hset := @setAt_replicate blockSize _ text.toUTF8.toList _ hheader (by rw [hnoise]; omega)
  show (if text.toUTF8.toList.length + 4 < blockSize then some _ else some _) = _
  split_ifs with hroom
  · exact congrArg some hset
  · -- the text fills the last block, and there is nothing to put after it
    have hnone : (random (blockSize - 4 - text.toUTF8.toList.length)).1 = [] :=
      List.eq_nil_of_length_eq_zero (by rw [hnoise]; omega)
    rw [← hset, hnone]
    unfold setAt
    simp

/-! ## Both lengths are the least -/

theorem leastBlock_pad : LeastBlock text.toUTF8.toList.length (pad text random).length := by
  have hleast := leastBlock_ceil text.toUTF8.toList.length
  have hlength : (pad text random).length =
      (text.toUTF8.toList.length + 4 + 2047) / 2048 * 2048 := by
    have hfits := hleast.fits
    unfold pad
    dsimp only
    rw [List.length_append, List.length_append, length_be32, (random _).2]
    omega
  rw [hlength]
  exact hleast

theorem padPlaintext_eq (hshort : text.toUTF8.toList.length < 2 ^ 32) :
    ∃ data, padPlaintext text urandom = .ok data ∧
      LeastBlock text.toUTF8.toList.length data.length := by
  have hpack : packU32 text.toUTF8.toList.length =
      .ok (be32 (UInt32.ofNat text.toUTF8.toList.length)) :=
    if_pos (by omega)
  have hleast := leastBlock_ceil text.toUTF8.toList.length
  have hfits := hleast.fits
  unfold padPlaintext
  dsimp only
  rw [hpack]
  refine ⟨_, rfl, ?_⟩
  rw [List.length_append, List.length_append, length_be32, (urandom _).2]
  convert hleast using 1
  -- a text that fits one block is set apart, and the ceiling is that block
  unfold paddedSize
  split_ifs with hlong <;> omega

/-! ## Texts come back -/

/-- Both decoders find the text behind its length, whatever comes after it. -/
theorem unpad_eq (hshort : text.toUTF8.toList.length < 2 ^ 32) {data noise : List UInt8}
    (hdata : data = be32 (UInt32.ofNat text.toUTF8.toList.length) ++ text.toUTF8.toList ++ noise)
    (textDecode : List UInt8 → String) :
    Python.unpad data = .ok text ∧
      unpad textDecode data = .ok (textDecode text.toUTF8.toList) := by
  have hheader : (be32 (UInt32.ofNat text.toUTF8.toList.length)).length = 4 := length_be32 _
  rw [List.append_assoc] at hdata
  have htake : data.take 4 = be32 (UInt32.ofNat text.toUTF8.toList.length) := by
    rw [hdata, List.take_left' hheader]
  have hfront : (ofBe32 (data.take 4)).toNat = text.toUTF8.toList.length := by
    rw [htake, ofBe32_be32, UInt32.toNat_ofNat', Nat.mod_eq_of_lt hshort]
  have htext : (data.drop 4).take text.toUTF8.toList.length = text.toUTF8.toList := by
    rw [hdata, List.drop_left' hheader, List.take_left' rfl]
  have hfits : text.toUTF8.toList.length + 4 ≤ data.length := by
    rw [hdata, List.length_append, List.length_append, hheader]
    omega
  constructor
  · have hunpack : Python.unpackU32 (data.take 4) = .ok text.toUTF8.toList.length := by
      unfold Python.unpackU32
      rw [if_pos (by rw [htake, hheader]), hfront]
    unfold Python.unpad
    rw [hunpack, EStateM.except_ok_bind, if_neg (by omega), htext]
    exact Python.decodeUtf8_toUTF8 text
  · unfold unpad
    rw [if_neg (by omega)]
    dsimp only
    rw [hfront, if_neg (by omega), htext]
    rfl

theorem unpad_pad (hshort : text.toUTF8.toList.length < 2 ^ 32) (random : (n : ℕ) → Bytes n)
    (textDecode : List UInt8 → String) :
    Python.unpad (pad text random) = .ok text ∧
      unpad textDecode (pad text random) = .ok (textDecode text.toUTF8.toList) :=
  unpad_eq hshort rfl textDecode

/-- Neither decoder reads beyond the end of its buffer. -/
theorem unpad_error (textDecode : List UInt8 → String) {data : List UInt8}
    (hbeyond : data.length < 4 + (ofBe32 (data.take 4)).toNat) :
    (∃ e, Python.unpad data = .error e) ∧ ∃ e, unpad textDecode data = .error e := by
  by_cases hfour : data.length < 4
  · -- no length to be read
    have hnone : (data.take 4).length ≠ 4 := by
      rw [List.length_take]
      omega
    constructor
    · refine ⟨.structError "unpack requires a buffer of 4 bytes", ?_⟩
      unfold Python.unpad Python.unpackU32
      rw [if_neg hnone]
      rfl
    · refine ⟨.rangeError, ?_⟩
      unfold unpad
      rw [if_pos hfour]
      rfl
  · have hsome : (data.take 4).length = 4 := by
      rw [List.length_take]
      omega
    constructor
    · refine ⟨.valueError "Decrypted length header exceeds message buffer bounds.", ?_⟩
      unfold Python.unpad Python.unpackU32
      rw [if_pos hsome, EStateM.except_ok_bind, if_pos (by omega)]
      rfl
    · refine ⟨.error "Decrypted length header exceeds message buffer bounds.", ?_⟩
      unfold unpad
      rw [if_neg hfour]
      dsimp only
      rw [if_pos (by omega)]
      rfl

end

/-! ## The two clients -/

/-- Both clients pad the text to the least block, and both read it out of either buffer,
whatever the filler; a buffer whose length field goes beyond its end is refused. -/
structure RoundTrips (textDecode : List UInt8 → String) (text : String) : Prop where
  padded : ∀ (urandom random : (n : ℕ) → Bytes n) (fuel : ℕ), text.toUTF8.toList.length < fuel →
    ∃ python web, padPlaintext text urandom = .ok python ∧ padBuffer text random fuel = some web ∧
      python.length = web.length ∧ LeastBlock text.toUTF8.toList.length python.length ∧
      ∀ data ∈ [python, web], Python.unpad data = .ok text ∧ unpad textDecode data = .ok text
  bounded : ∀ data, data.length < 4 + (ofBe32 (data.take 4)).toNat →
    (∃ e, Python.unpad data = .error e) ∧ ∃ e, unpad textDecode data = .error e

/-- What the web client reads out of its own buffer is what its decoder makes of the
text. -/
theorem RoundTrips.decoded {textDecode : List UInt8 → String} {text : String}
    (h : RoundTrips textDecode text) (hshort : text.toUTF8.toList.length < 2 ^ 32) :
    textDecode text.toUTF8.toList = text := by
  obtain ⟨python, web, -, hweb, -, -, hread⟩ := h.padded (fun n => Bytes.replicate n 0)
    (fun n => Bytes.replicate n 0) (text.toUTF8.toList.length + 1) (Nat.lt_succ_self _)
  rw [padBuffer_eq (Nat.lt_succ_self _)] at hweb
  obtain rfl := Option.some.inj hweb
  have htext := (hread _ (List.mem_pair.mpr (.inr rfl))).2
  have hdecoded := (unpad_pad hshort (fun n => Bytes.replicate n 0) textDecode).2
  exact Except.ok.inj (hdecoded.symm.trans htext)

/-- Texts come back to both clients exactly if they do not begin with a byte order
mark, which the decoder of the web client drops. -/
theorem roundTrips_iff (malformed : List UInt8 → String) (text : String)
    (hshort : text.toUTF8.toList.length < 2 ^ 32) :
    RoundTrips (Utf8.textDecode malformed) text ↔ text.toList.head? ≠ some Utf8.mark := by
  rw [← @Utf8.textDecode_toUTF8_iff malformed text]
  constructor
  · intro htrips
    exact htrips.decoded hshort
  · intro hdecode
    refine ⟨fun urandom random fuel hfuel => ?_, fun data hbeyond => unpad_error _ hbeyond⟩
    obtain ⟨python, hpython, hleast⟩ := @padPlaintext_eq text urandom hshort
    obtain ⟨noise, hdata, -⟩ := Python.padPlaintext_eq_ok hpython
    refine ⟨python, pad text random, hpython, padBuffer_eq hfuel,
      hleast.unique leastBlock_pad, hleast, ?_⟩
    intro data hmem
    -- either buffer is the length, the text and some noise
    have hform : ∃ noise, data =
        be32 (UInt32.ofNat text.toUTF8.toList.length) ++ text.toUTF8.toList ++ noise := by
      rcases List.mem_pair.mp hmem with rfl | rfl
      · exact ⟨noise, hdata⟩
      · exact ⟨_, rfl⟩
    obtain ⟨noise, hdata⟩ := hform
    have hunpad := unpad_eq hshort hdata (Utf8.textDecode malformed)
    rw [hdecode] at hunpad
    exact hunpad

theorem roundTrips_iff_hello :
    "hello".toUTF8.toList.length < 2 ^ 32 ∧
      (RoundTrips (Utf8.textDecode fun _ => "") "hello" ↔
        "hello".toList.head? ≠ some Utf8.mark) :=
  ⟨by decide +kernel, roundTrips_iff _ "hello" (by decide +kernel)⟩

/-- A text that begins with the mark comes back to the web client without it. -/
theorem mark_is_lost :
    ¬ RoundTrips (Utf8.textDecode fun _ => "") (String.singleton Utf8.mark) := by
  intro htrips
  have hdecoded := htrips.decoded (by rw [Utf8.toUTF8_mark]; decide)
  -- nothing is left
  have hempty : Utf8.textDecode (fun _ => "") (String.singleton Utf8.mark).toUTF8.toList = "" := by
    decide +kernel
  rw [hempty] at hdecoded
  exact absurd hdecoded (by decide)

end Web

end AnonyMus
