import AnonyMus.Relay.Nodes

/-!
# How requests signed by an onion address are refused

The verifiers of `transports/p2p/routers/files.py` and
`transports/relay/routers/nodes.py` document that they raise `HTTPException`. All
stages are guarded but one: the distance of the timestamp from the clock.

* `Total` — a verifier returns, or raises `HTTPException`;
* `verifySigned_total_iff` — it does, unless the key decodes and the timestamp has
  no offset;
* `verifiers_total_iff` — so it is for both verifiers and all texts.
-/

namespace AnonyMus.P2p

open Relay.Nodes (matchesOnionV3 digitsOnion afterOnionV3_digitsOnion take_digitsOnion)

/-- The check has returned, or raised an `HTTPException`. -/
def Total (r : Except Failure Unit) : Prop :=
  r = .ok ⟨⟩ ∨ ∃ statusCode detail, r = .error (.http statusCode detail)

/-- `_ONION_V3_RE.match` of the files router, which lets a port pass. -/
def matchesOnionHost (senderOnion : String) : Bool :=
  ((afterOnionV3 senderOnion).filter isPortEnd).isSome

/-- The key of the address is written without letters: these are in lower case, which the decoder
does not know. -/
def DigitsOnly (address : String) : Prop := ∀ c ∈ address.toList.take 56, c.isDigit = true

/-- `fromisoformat` accepts the timestamp and finds no offset in it. -/
def Naive (S : SignatureLibrary) (timestamp : String) : Prop :=
  ∃ stamp ∈ S.fromIsoformat (replaceZ timestamp), stamp.offset = none

section

variable {S : SignatureLibrary} {address : String}

theorem label_of_afterOnionV3 {p : List Char → Bool}
    (h : ((afterOnionV3 address).filter p).isSome = true) :
    (address.toList.take 56).length = 56 ∧ (address.toList.take 56).all isBase32 = true := by
  obtain ⟨rest, hrest⟩ := Option.isSome_iff_exists.mp h
  have hafter := (Option.filter_eq_some_iff.mp hrest).1
  unfold afterOnionV3 at hafter
  dsimp only at hafter
  split_ifs at hafter with hlabel
  exact ⟨hlabel.1, hlabel.2.1⟩

/-- Of the characters of an address, the decoder knows the digits. -/
theorem mem_b32Alphabet_iff {c : Char} (h : isBase32 c = true) :
    c ∈ b32Alphabet ↔ c.isDigit = true := by
  have hupper : (b32Alphabet.filter isBase32).all Char.isDigit = true := by decide
  have hdigits : ∀ n < 6, Char.ofNat (n + 50) ∈ b32Alphabet := by decide
  constructor
  · intro hc
    exact List.all_eq_true.mp hupper c (List.mem_filter.mpr ⟨hc, h⟩)
  · intro hdigit
    -- a digit that is no letter, from 2 to 7
    have hrange : 50 ≤ c.toNat ∧ c.toNat < 56 := by
      simp only [isBase32, Char.isDigit, Bool.or_eq_true, Bool.and_eq_true, decide_eq_true_eq,
        Char.le_def, UInt32.le_iff_toNat_le] at h hdigit
      have ha : 'a'.val.toNat = 97 := rfl
      have h2 : '2'.val.toNat = 50 := rfl
      have h7 : '7'.val.toNat = 55 := rfl
      have h9 : '9'.val.toNat = 57 := rfl
      have hval : c.toNat = c.val.toNat := rfl
      omega
    have hmem := hdigits (c.toNat - 50) (by omega)
    rwa [Nat.sub_add_cancel hrange.1, Char.ofNat_toNat] at hmem

/-! ## The stages after the address -/

/-- The key decodes exactly if it has no letters. -/
theorem b32decode_label {label : List Char} (hlength : label.length = 56)
    (hbase : label.all isBase32 = true) :
    ((∀ c ∈ label, c.isDigit = true) → ∃ bytes, b32decode label = some bytes ∧ bytes.length = 35) ∧
      (¬ (∀ c ∈ label, c.isDigit = true) → b32decode label = none) := by
  have hchars := List.all_eq_true.mp hbase
  constructor
  · intro hdigits
    obtain ⟨bytes, hbytes, hcount⟩ := b32decode_of_mem
      (fun c hc => (mem_b32Alphabet_iff (hchars c hc)).mpr (hdigits c hc)) (by rw [hlength])
    rw [hlength] at hcount
    exact ⟨bytes, hbytes, hcount⟩
  · intro hletter
    push Not at hletter
    obtain ⟨c, hc, hnot⟩ := hletter
    have hpad : c ≠ '=' := by
      rintro rfl
      exact absurd (hchars '=' hc) (by decide)
    exact b32decode_eq_none hc hpad fun hmem => hnot ((mem_b32Alphabet_iff (hchars c hc)).mp hmem)

theorem total_http (statusCode : ℕ) (detail : String) : Total (.error (.http statusCode detail)) :=
  .inr ⟨statusCode, detail, rfl⟩

theorem not_total_internal : ¬ Total (.error .internal) := by
  rintro (⟨⟨⟩⟩ | ⟨statusCode, detail, ⟨⟩⟩)

/-- The check passes or is refused, but for the difference of a time without an offset and one with
an offset. -/
theorem verifySigned_total_iff (hlength : (address.toList.take 56).length = 56)
    (hbase : (address.toList.take 56).all isBase32 = true)
    (badSignature timestamp signatureB64 message : String) (now : DateTime)
    (maxSkewSeconds : ℕ) :
    Total (verifySigned S badSignature address timestamp signatureB64 message now
        maxSkewSeconds) ↔ ¬ (DigitsOnly address ∧ Naive S timestamp) := by
  obtain ⟨hdecodes, hrefused⟩ := b32decode_label hlength hbase
  unfold verifySigned
  dsimp only
  rw [hlength, show (8 - 56 % 8) % 8 = 0 from rfl, List.replicate_zero, List.append_nil]
  by_cases hdigits : DigitsOnly address
  · obtain ⟨bytes, hbytes, hcount⟩ := hdecodes hdigits
    rw [hbytes]
    dsimp only
    rw [if_neg (not_not_intro hcount), and_iff_right hdigits]
    rcases hstamp : S.fromIsoformat (replaceZ timestamp) with _ | stamp
    · refine iff_of_true (total_http _ _) ?_
      rintro ⟨stamp, hmem, -⟩
      rw [hstamp] at hmem
      cases hmem
    dsimp only
    have hnaive : Naive S timestamp ↔ stamp.offset = none := by
      unfold Naive
      rw [hstamp]
      simp
    rw [hnaive]
    rcases hoffset : stamp.offset with _ | offset
    · have hnone : utcMicroseconds stamp = none := by rw [utcMicroseconds, hoffset, Option.map_none]
      rw [hnone]
      exact iff_of_false not_total_internal (not_not_intro rfl)
    · have hsome : utcMicroseconds stamp =
          some ((stamp.wall.microseconds : ℤ) - offset * 1000000) := by
        rw [utcMicroseconds, hoffset, Option.map_some]
      rw [hsome]
      refine iff_of_true ?_ (Option.some_ne_none _)
      -- what is left is refused with a code of its own, or accepted
      dsimp only
      split_ifs
      · exact total_http _ _
      rcases Python.b64decode (.text signatureB64.toList) with e | signature
      · exact total_http _ _
      dsimp only
      split_ifs
      · exact .inl rfl
      · exact total_http _ _
  · rw [hrefused hdigits]
    exact iff_of_true (total_http _ _) fun h => hdigits h.1

end

/-! ## Both verifiers -/

/-- For all texts, each verifier returns or raises `HTTPException`, unless the address is well formed
and its key has digits only, and the timestamp is accepted and has no offset. -/
theorem verifiers_total_iff (S : SignatureLibrary) (chunkId timestamp signatureB64 address : String)
    (now : DateTime) (skewSeconds : ℕ) :
    (Total (verifyP2pUploadSignature S chunkId timestamp signatureB64 address now skewSeconds) ↔
      ¬ (matchesOnionHost address = true ∧ DigitsOnly address ∧ Naive S timestamp)) ∧
    (Total (verifyNodeSignature S address timestamp signatureB64 now) ↔
      ¬ (matchesOnionV3 address = true ∧ DigitsOnly address ∧ Naive S timestamp)) := by
  constructor
  · unfold verifyP2pUploadSignature
    rcases hrest : (afterOnionV3 address).filter isPortEnd with _ | rest
    · refine iff_of_true (total_http _ _) ?_
      rintro ⟨hmatch, -⟩
      rw [matchesOnionHost, hrest] at hmatch
      cases hmatch
    · have hmatch : matchesOnionHost address = true := by rw [matchesOnionHost, hrest]; rfl
      obtain ⟨hlength, hbase⟩ := label_of_afterOnionV3 hmatch
      -- the host has the label of the address
      have hhost : (String.ofList (address.toList.take 62)).toList.take 56 =
          address.toList.take 56 := by
        rw [String.toList_ofList, List.take_take]
        rfl
      dsimp only
      rw [and_iff_right hmatch, verifySigned_total_iff (by rw [hhost, hlength])
        (by rw [hhost, hbase])]
      unfold DigitsOnly
      rw [hhost]
  · unfold verifyNodeSignature
    rcases hrest : (afterOnionV3 address).filter fun rest => rest == [] || rest == ['\n'] with
      _ | rest
    · refine iff_of_true (total_http _ _) ?_
      rintro ⟨hmatch, -⟩
      rw [matchesOnionV3, hrest] at hmatch
      cases hmatch
    · have hmatch : matchesOnionV3 address = true := by rw [matchesOnionV3, hrest]; rfl
      obtain ⟨hlength, hbase⟩ := label_of_afterOnionV3 hmatch
      dsimp only
      rw [and_iff_right hmatch]
      exact verifySigned_total_iff hlength hbase _ _ _ _ _ _

/-! ## A timestamp without an offset -/

/-- Texts without an offset are read as such. -/
def naiveSignatures : SignatureLibrary :=
  { plainSignatures with
    fromIsoformat := fun s => (DateTime.ofIsoformat s.toList).map fun wall => ⟨wall, none⟩ }

theorem naive_aMoment : Naive naiveSignatures "2023-11-15T09:30:05" := by
  have hread : naiveSignatures.fromIsoformat (replaceZ "2023-11-15T09:30:05") =
      some ⟨aMoment, none⟩ := by decide +kernel
  exact ⟨_, hread, rfl⟩

theorem digitsOnly_digitsOnion : DigitsOnly digitsOnion := by
  unfold DigitsOnly
  rw [take_digitsOnion]
  intro c hc
  rw [List.eq_of_mem_replicate hc]
  rfl

/-- Both verifiers raise `TypeError` for a timestamp that has lost its offset. -/
theorem not_total_naive :
    ¬ Total (verifyP2pUploadSignature naiveSignatures "chunk" "2023-11-15T09:30:05" "" digitsOnion
      aMoment 300) ∧
    ¬ Total (verifyNodeSignature naiveSignatures digitsOnion "2023-11-15T09:30:05" "" aMoment) := by
  have hafter : afterOnionV3 digitsOnion = some [] :=
    (Option.filter_eq_some_iff.mp afterOnionV3_digitsOnion).1
  obtain ⟨hlength, hbase⟩ := @label_of_afterOnionV3 digitsOnion (fun _ => true)
    (by rw [hafter]; rfl)
  have hhost : (String.ofList (digitsOnion.toList.take 62)).toList.take 56 =
      digitsOnion.toList.take 56 := by
    rw [String.toList_ofList, List.take_take]
    rfl
  constructor
  · unfold verifyP2pUploadSignature
    rw [hafter]
    show ¬ Total (verifySigned _ _ _ _ _ _ _ _)
    rw [verifySigned_total_iff (by rw [hhost, hlength]) (by rw [hhost, hbase]), not_not]
    refine ⟨?_, naive_aMoment⟩
    unfold DigitsOnly
    rw [hhost]
    exact digitsOnly_digitsOnion
  · unfold verifyNodeSignature
    rw [hafter]
    show ¬ Total (verifySigned _ _ _ _ _ _ _ _)
    rw [verifySigned_total_iff hlength hbase, not_not]
    exact ⟨digitsOnly_digitsOnion, naive_aMoment⟩

end AnonyMus.P2p
