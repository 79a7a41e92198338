import AnonyMus.Lib.Bytes
import AnonyMus.Lib.Utf8

/-!
# Percent-encoding

`encodeURIComponent` and `decodeURIComponent`: characters outside a small set
are written as their UTF-8 bytes, each as a percent sign and two digits.

* `decodeComponent_encodeComponent` — what was encoded is read back.
-/

namespace Percent

/-- The marks that `encodeURIComponent` leaves as they are, besides letters and digits. -/
def marks : List Char := "-_.!~*'()".toList

def unreserved (c : Char) : Bool := c.isAlphanum || marks.contains c

def upperDigit (v : ℕ) : Char := "0123456789ABCDEF".toList.getD v '0'

def encodeByte (b : UInt8) : List Char :=
  ['%', upperDigit (b.toNat / 16), upperDigit (b.toNat % 16)]

def encodeChar (c : Char) : List Char :=
  if unreserved c then [c] else (String.utf8EncodeChar c).flatMap encodeByte

/-- `encodeURIComponent`. -/
def encodeComponent (text : List Char) : List Char := text.flatMap encodeChar

/-- The bytes of a text whose percent signs all begin an escape. -/
def decodeBytes : List Char → Option (List UInt8)
  | [] => some []
  | '%' :: hi :: lo :: rest => do
    let hi ← hexValue hi
    let lo ← hexValue lo
    let bytes ← decodeBytes rest
    return UInt8.ofNat (hi * 16 + lo) :: bytes
  | '%' :: _ => none
  | c :: rest => do
    let bytes ← decodeBytes rest
    return String.utf8EncodeChar c ++ bytes

/-- `decodeURIComponent`; none where it throws. -/
def decodeComponent (text : List Char) : Option String := (decodeBytes text).bind Utf8.read?

theorem hexValue_upperDigit : ∀ v < 16, hexValue (upperDigit v) = some v := by decide

theorem decodeBytes_plain {c : Char} (hc : c ≠ '%') (rest : List Char) :
    decodeBytes (c :: rest) =
      (decodeBytes rest).map fun bytes => String.utf8EncodeChar c ++ bytes := by
  conv_lhs => unfold decodeBytes
  split
  case h_1 heq => cases heq
  case h_2 heq => exact absurd (List.cons.inj heq).1 hc
  case h_3 heq => exact absurd (List.cons.inj heq).1 hc
  case h_4 heq =>
    obtain ⟨rfl, rfl⟩ := List.cons.inj heq
    cases decodeBytes rest <;> rfl

theorem decodeBytes_encodeByte (b : UInt8) (rest : List Char) :
    decodeBytes (encodeByte b ++ rest) = (decodeBytes rest).map fun bytes => b :: bytes := by
  have hb := b.toNat_lt
  show decodeBytes ('%' :: upperDigit (b.toNat / 16) :: upperDigit (b.toNat % 16) :: rest) = _
  rw [decodeBytes, hexValue_upperDigit _ (by omega), hexValue_upperDigit _ (by omega)]
  cases decodeBytes rest with
  | none => rfl
  | some bytes =>
    show some (UInt8.ofNat (b.toNat / 16 * 16 + b.toNat % 16) :: bytes) = some (b :: bytes)
    rw [ofNat_eq_of_toNat (a := b) (by omega)]

theorem decodeBytes_encodeBytes (bytes : List UInt8) (rest : List Char) :
    decodeBytes (bytes.flatMap encodeByte ++ rest) =
      (decodeBytes rest).map fun after => bytes ++ after := by
  induction bytes with
  | nil => simp
  | cons b bytes ih =>
    rw [List.flatMap_cons, List.append_assoc, decodeBytes_encodeByte, ih, Option.map_map]
    rfl

theorem decodeBytes_encodeComponent (text : List Char) :
    decodeBytes (encodeComponent text) = some (text.flatMap String.utf8EncodeChar) := by
  induction text with
  | nil => rfl
  | cons c text ih =>
    rw [encodeComponent] at ih
    rw [encodeComponent, List.flatMap_cons, List.flatMap_cons, encodeChar]
    by_cases hplain : unreserved c = true
    · have hc : c ≠ '%' := by
        rintro rfl
        exact absurd hplain (by decide)
      rw [if_pos hplain, List.singleton_append, decodeBytes_plain hc, ih]
      rfl
    · rw [if_neg hplain, decodeBytes_encodeBytes, ih]
      rfl

/-- What was encoded is read back. -/
theorem decodeComponent_encodeComponent (text : String) :
    decodeComponent (encodeComponent text.toList) = some text := by
  rw [decodeComponent, decodeBytes_encodeComponent, Option.bind_some, ← Utf8.toUTF8_eq_flatMap]
  exact Utf8.read?_toUTF8 text

end Percent
