import AnonyMus.Lib.Bytes

/-!
# Forgiving base64

The decoder behind `atob`: blanks are left out, the padding of a text whose
length is a multiple of four is dropped, and what is left must be characters of
the alphabet that make up whole bytes. Bits over are ignored.

* `forgivingDecode` — the decoder;
* `forgivingDecode_b64encode` — what `btoa` writes is read back.
-/

/-- The bytes of characters without padding. -/
def decodeGroups : List Char → Option (List UInt8)
  | [] => some []
  | [_] => none
  | [a, b] => do
    let a ← b64Value a
    let b ← b64Value b
    return [UInt8.ofNat (a * 4 + b / 16)]
  | [a, b, c] => do
    let a ← b64Value a
    let b ← b64Value b
    let c ← b64Value c
    return [UInt8.ofNat (a * 4 + b / 16), UInt8.ofNat (b % 16 * 16 + c / 4)]
  | a :: b :: c :: d :: rest => do
    let a ← b64Value a
    let b ← b64Value b
    let c ← b64Value c
    let d ← b64Value d
    let bytes ← decodeGroups rest
    return UInt8.ofNat (a * 4 + b / 16) :: UInt8.ofNat (b % 16 * 16 + c / 4) ::
      UInt8.ofNat (c % 4 * 64 + d) :: bytes

/-- ASCII whitespace. -/
def isAsciiBlank (c : Char) : Bool := c = ' ' || c = '\t' || c = '\n' || c = '\r' || c.toNat = 12

/-- One or two characters of padding, where the length is a multiple of four. -/
def dropPadding (cs : List Char) : List Char :=
  if cs.length % 4 = 0 then
    match cs.reverse with
    | '=' :: '=' :: rest => rest.reverse
    | '=' :: rest => rest.reverse
    | _ => cs
  else cs

def forgivingDecode (text : List Char) : Option (List UInt8) :=
  decodeGroups (dropPadding (text.filter fun c => !isAsciiBlank c))

/-! ## Text that was encoded -/

/-- The base64 text without its padding. -/
def b64Unpadded : List UInt8 → List Char
  | [] => []
  | [a] => [b64Char (a.toNat / 4), b64Char (a.toNat % 4 * 16)]
  | [a, b] =>
    [b64Char (a.toNat / 4), b64Char (a.toNat % 4 * 16 + b.toNat / 16), b64Char (b.toNat % 16 * 4)]
  | a :: b :: c :: rest =>
    b64Char (a.toNat / 4) :: b64Char (a.toNat % 4 * 16 + b.toNat / 16) ::
      b64Char (b.toNat % 16 * 4 + c.toNat / 64) :: b64Char (c.toNat % 64) :: b64Unpadded rest

theorem b64Char_plain (v : ℕ) : isAsciiBlank (b64Char v) = false ∧ b64Char v ≠ '=' := by
  by_cases hv : v < 64
  · revert v
    decide +kernel
  · rw [b64Char, List.getElem?_eq_none (Nat.le_of_not_lt hv)]
    decide

theorem b64Unpadded_plain (l : List UInt8) :
    ∀ c ∈ b64Unpadded l, isAsciiBlank c = false ∧ c ≠ '=' := by
  fun_induction b64Unpadded l with
  | case1 => simp
  | case2 => simp [b64Char_plain]
  | case3 => simp [b64Char_plain]
  | case4 a b c rest ih => simpa [b64Char_plain] using ih

theorem b64encode_eq (l : List UInt8) :
    ∃ pads ≤ 2, b64encode l = b64Unpadded l ++ List.replicate pads '=' := by
  fun_induction b64Unpadded l with
  | case1 => exact ⟨0, by omega, rfl⟩
  | case2 => exact ⟨2, by omega, rfl⟩
  | case3 => exact ⟨1, by omega, rfl⟩
  | case4 a b c rest ih =>
    obtain ⟨pads, hle, heq⟩ := ih
    refine ⟨pads, hle, ?_⟩
    rw [b64encode, heq]
    rfl

theorem dropPadding_replicate {cs : List Char} (hplain : ∀ c ∈ cs, c ≠ '=') {pads : ℕ}
    (hpads : pads ≤ 2) (hlength : (cs ++ List.replicate pads '=').length % 4 = 0) :
    dropPadding (cs ++ List.replicate pads '=') = cs := by
  have hhead : ∀ rest, cs.reverse ≠ '=' :: rest := by
    intro rest h
    have hmem : '=' ∈ cs := by
      rw [← List.mem_reverse, h]
      exact List.mem_cons_self
    exact hplain _ hmem rfl
  unfold dropPadding
  rw [if_pos hlength, List.reverse_append, List.reverse_replicate]
  -- the padding is at the front of the reversed text, and no character before it is one
  match pads, hpads with
  | 0, _ =>
    simp only [List.replicate_zero, List.nil_append, List.append_nil]
    split
    case h_1 h => exact absurd h (hhead _)
    case h_2 h => exact absurd h (hhead _)
    case h_3 => rfl
  | 1, _ =>
    rw [List.replicate_one, List.singleton_append]
    split
    case h_1 h => exact absurd (List.cons.inj h).2 (hhead _)
    case h_2 h => rw [← (List.cons.inj h).2, List.reverse_reverse]
    case h_3 hno => exact absurd rfl (hno _)
  | 2, _ => exact List.reverse_reverse cs

theorem b64Value_b64Char' {v : ℕ} (hv : v < 64) : b64Value (b64Char v) = some v :=
  (b64Value_b64Char v hv).1

theorem decodeGroups_b64Unpadded (l : List UInt8) : decodeGroups (b64Unpadded l) = some l := by
  fun_induction b64Unpadded l with
  | case1 => rfl
  | case2 a =>
    have ha := a.toNat_lt
    rw [decodeGroups, b64Value_b64Char' (by omega), b64Value_b64Char' (by omega)]
    show some [UInt8.ofNat _] = _
    rw [ofNat_eq_of_toNat (a := a) (by omega)]
  | case3 a b =>
    have ha := a.toNat_lt
    have hb := b.toNat_lt
    rw [decodeGroups, b64Value_b64Char' (by omega), b64Value_b64Char' (by omega),
      b64Value_b64Char' (by omega)]
    show some [UInt8.ofNat _, UInt8.ofNat _] = _
    rw [ofNat_eq_of_toNat (a := a) (by omega), ofNat_eq_of_toNat (a := b) (by omega)]
  | case4 a b c rest ih =>
    have ha := a.toNat_lt
    have hb := b.toNat_lt
    have hc := c.toNat_lt
    rw [decodeGroups, b64Value_b64Char' (by omega), b64Value_b64Char' (by omega),
      b64Value_b64Char' (by omega), b64Value_b64Char' (by omega), ih]
    show some (UInt8.ofNat _ :: UInt8.ofNat _ :: UInt8.ofNat _ :: rest) = _
    rw [ofNat_eq_of_toNat (a := a) (by omega), ofNat_eq_of_toNat (a := b) (by omega),
      ofNat_eq_of_toNat (a := c) (by omega)]

/-- Base64 text is read back. -/
theorem forgivingDecode_b64encode (l : List UInt8) : forgivingDecode (b64encode l) = some l := by
  obtain ⟨pads, hpads, heq⟩ := b64encode_eq l
  have hlength : (b64encode l).length % 4 = 0 := by
    rw [length_b64encode]
    omega
  have hblank : ∀ c ∈ b64encode l, (!isAsciiBlank c) = true := by
    intro c hc
    rw [heq, List.mem_append] at hc
    rcases hc with hc | hc
    · rw [(b64Unpadded_plain l c hc).1]
      rfl
    · rw [List.eq_of_mem_replicate hc]
      decide
  rw [forgivingDecode, List.filter_eq_self.mpr hblank, heq,
    dropPadding_replicate (fun c hc => (b64Unpadded_plain l c hc).2) hpads (heq ▸ hlength),
    decodeGroups_b64Unpadded]
