import Mathlib.Algebra.Group.Nat.Defs
import Mathlib.Data.List.Nodup
import Mathlib.Data.Nat.Notation

/-!
# Byte strings and their text forms

Fixed-length byte strings as lists that carry their length, big-endian 32-bit
and 64-bit words, and the two text encodings of byte strings, hexadecimal and base64.

* `ofBe32_be32` — a word is read back from its four bytes;
* `be64_injective` — the eight bytes of a 64-bit word tell it;
* `fromHex_toHex` — hexadecimal text is read back;
* `a2bBase64_b64encode` — base64 text is read back;
* `b64encode_injective` — so it tells byte strings apart.
-/

/-- Byte strings of length `n`. -/
abbrev Bytes (n : ℕ) := { l : List UInt8 // l.length = n }

namespace Bytes

/-- The first `m` bytes. -/
def take {n : ℕ} (b : Bytes n) (m : ℕ) (h : m ≤ n := by omega) : Bytes m :=
  ⟨b.1.take m, by rw [List.length_take, b.2]; omega⟩

/-- The bytes from position `m` on. -/
def drop {n : ℕ} (b : Bytes n) (m : ℕ) : Bytes (n - m) :=
  ⟨b.1.drop m, by rw [List.length_drop, b.2]⟩

def replicate (n : ℕ) (x : UInt8) : Bytes n := ⟨List.replicate n x, List.length_replicate⟩

/-- The last `n` bytes of a number, the most significant first. -/
def ofNat (n value : ℕ) : Bytes n :=
  ⟨(List.range n).map fun i => UInt8.ofNat (value >>> (8 * (n - 1 - i))), by simp⟩

end Bytes

/-- The bytes of an array, in order. -/
theorem toList_loop_eq (bytes : ByteArray) (i : ℕ) (read : List UInt8) :
    ByteArray.toList.loop bytes i read = read.reverse ++ bytes.data.toList.drop i := by
  fun_induction ByteArray.toList.loop bytes i read with
  | case1 i read hi ih =>
    have hlen : i < bytes.data.toList.length := hi
    have hbyte : bytes.get! i = bytes.data.toList[i] := getElem!_pos bytes.data i hi
    rw [ih, List.reverse_cons, List.append_assoc, List.singleton_append, hbyte,
      ← List.drop_eq_getElem_cons hlen]
  | case2 i read hi =>
    have hlen : bytes.data.toList.length ≤ i := Nat.le_of_not_lt hi
    rw [List.drop_eq_nil_of_le hlen, List.append_nil]

theorem mk_toList (bytes : ByteArray) : (⟨bytes.toList.toArray⟩ : ByteArray) = bytes := by
  unfold ByteArray.toList
  rw [toList_loop_eq]
  rfl

/-! ## Big-endian words -/

def be32 (x : UInt32) : List UInt8 :=
  [UInt8.ofNat (x.toNat / 2 ^ 24), UInt8.ofNat (x.toNat / 2 ^ 16),
    UInt8.ofNat (x.toNat / 2 ^ 8), UInt8.ofNat x.toNat]

def ofBe32 : List UInt8 → UInt32
  | [a, b, c, d] =>
    UInt32.ofNat (a.toNat * 2 ^ 24 + b.toNat * 2 ^ 16 + c.toNat * 2 ^ 8 + d.toNat)
  | _ => 0

@[simp] theorem length_be32 (x : UInt32) : (be32 x).length = 4 := rfl

@[simp] theorem ofBe32_be32 (x : UInt32) : ofBe32 (be32 x) = x := by
  have hx := x.toNat_lt
  apply UInt32.toNat_inj.mp
  simp only [be32, ofBe32, UInt32.toNat_ofNat', UInt8.toNat_ofNat']
  omega

def be64 (x : UInt64) : List UInt8 :=
  be32 (UInt32.ofNat (x.toNat / 2 ^ 32)) ++ be32 (UInt32.ofNat x.toNat)

@[simp] theorem length_be64 (x : UInt64) : (be64 x).length = 8 := rfl

theorem be32_injective : Function.Injective be32 := by
  intro x y h
  rw [← ofBe32_be32 x, h, ofBe32_be32]

theorem be64_injective : Function.Injective be64 := by
  intro x y h
  obtain ⟨hhigh, hlow⟩ := List.append_inj' h rfl
  have hhigh := congrArg UInt32.toNat (be32_injective hhigh)
  have hlow := congrArg UInt32.toNat (be32_injective hlow)
  simp only [UInt32.toNat_ofNat'] at hhigh hlow
  have hx := x.toNat_lt
  have hy := y.toNat_lt
  apply UInt64.toNat_inj.mp
  omega

/-! ## Hexadecimal -/

def hexDigits : List Char := "0123456789abcdef".toList

def hexDigit (v : ℕ) : Char := hexDigits.getD v '0'

/-- The value of a hexadecimal digit of either case. -/
def hexValue (c : Char) : Option ℕ :=
  let v := hexDigits.idxOf c.toLower
  if v < 16 then some v else none

def toHex (l : List UInt8) : List Char :=
  l.flatMap fun b => [hexDigit (b.toNat / 16), hexDigit (b.toNat % 16)]

def fromHex : List Char → Option (List UInt8)
  | [] => some []
  | hi :: lo :: rest => do
    let h ← hexValue hi
    let l ← hexValue lo
    let bs ← fromHex rest
    return UInt8.ofNat (h * 16 + l) :: bs
  | [_] => none

theorem hexValue_hexDigit : ∀ v < 16, hexValue (hexDigit v) = some v := by decide

@[simp] theorem fromHex_toHex (l : List UInt8) : fromHex (toHex l) = some l := by
  induction l with
  | nil => rfl
  | cons b rest ih =>
    have hb := b.toNat_lt
    rw [toHex] at ih
    rw [toHex, List.flatMap_cons, List.cons_append, List.cons_append, List.nil_append, fromHex,
      hexValue_hexDigit _ (by omega), hexValue_hexDigit _ (by omega), ih]
    -- the two digits make up the byte again
    show some (UInt8.ofNat (b.toNat / 16 * 16 + b.toNat % 16) :: rest) = some (b :: rest)
    rw [show b.toNat / 16 * 16 + b.toNat % 16 = b.toNat by omega, UInt8.ofNat_toNat]

theorem toHex_eq_nil_iff {l : List UInt8} : toHex l = [] ↔ l = [] := by
  cases l with
  | nil => simp [toHex]
  | cons b rest => simp [toHex]

/-! ## Base64 -/

def b64Alphabet : List Char :=
  "ABCDEFGHIJKLMNOPQRSTUVWXYZabcdefghijklmnopqrstuvwxyz0123456789+/".toList

def b64Char (v : ℕ) : Char := b64Alphabet[v]?.getD 'A'

def b64encode : List UInt8 → List Char
  | [] => []
  | [a] => [b64Char (a.toNat / 4), b64Char (a.toNat % 4 * 16), '=', '=']
  | [a, b] =>
    [b64Char (a.toNat / 4), b64Char (a.toNat % 4 * 16 + b.toNat / 16),
      b64Char (b.toNat % 16 * 4), '=']
  | a :: b :: c :: rest =>
    b64Char (a.toNat / 4) :: b64Char (a.toNat % 4 * 16 + b.toNat / 16) ::
      b64Char (b.toNat % 16 * 4 + c.toNat / 64) :: b64Char (c.toNat % 64) :: b64encode rest

theorem length_b64encode (l : List UInt8) : (b64encode l).length = 4 * ((l.length + 2) / 3) := by
  fun_induction b64encode l with
  | case1 => rfl
  | case2 => simp
  | case3 => simp
  | case4 a b c rest ih =>
    simp only [List.length_cons, ih]
    omega

theorem b64encode_eq_nil_iff {l : List UInt8} : b64encode l = [] ↔ l = [] := by
  fun_cases b64encode l <;> simp

/-- Base64 text has no quotes in it. -/
theorem quote_notMem_b64encode (l : List UInt8) : '"' ∉ b64encode l := by
  have hchar : ∀ v, b64Char v ≠ '"' := by
    intro v
    by_cases hv : v < 64
    · revert v
      decide +kernel
    · rw [b64Char, List.getElem?_eq_none (Nat.le_of_not_lt hv)]
      decide
  fun_induction b64encode l with
  | case1 => simp
  | case2 => simp [Ne.symm (hchar _)]
  | case3 => simp [Ne.symm (hchar _)]
  | case4 a b c rest ih => simp [Ne.symm (hchar _), ih]

/-- Base64 text is ASCII. -/
theorem b64encode_ascii (l : List UInt8) :
    ((b64encode l).all fun c => c.toNat < 128) = true := by
  have hchar : ∀ v, (b64Char v).toNat < 128 := by
    intro v
    by_cases hv : v < 64
    · revert v
      decide +kernel
    · rw [b64Char, List.getElem?_eq_none (Nat.le_of_not_lt hv)]
      decide
  fun_induction b64encode l with
  | case1 => rfl
  | case2 => simp [hchar]
  | case3 => simp [hchar]
  | case4 a b c rest ih => simpa [hchar] using ih

/-- The value of a character of the base64 alphabet. -/
def b64Value (c : Char) : Option ℕ :=
  let v := b64Alphabet.idxOf c
  if v < 64 then some v else none

/-- The lenient decoder of `binascii.a2b_base64`: `quad` characters of the
current group are read, `left` holds their bits not yet written, and `pads`
counts the padding since the last character. Other characters are ignored, and
a complete padding ends the text. -/
def a2bBase64 (quad left pads : ℕ) (out : List UInt8) : List Char → Except String (List UInt8)
  | [] =>
    if quad = 0 then .ok out.reverse
    else if quad = 1 then
      .error ("Invalid base64-encoded string: number of data characters (" ++
        toString (out.length / 3 * 4 + 1) ++ ") cannot be 1 more than a multiple of 4")
    else .error "Incorrect padding"
  | c :: rest =>
    if c = '=' then
      if 2 ≤ quad then
        if 4 ≤ quad + (pads + 1) then .ok out.reverse else a2bBase64 quad left (pads + 1) out rest
      else a2bBase64 quad left pads out rest
    else
      match b64Value c with
      | none => a2bBase64 quad left pads out rest
      | some v =>
        if quad = 0 then a2bBase64 1 v 0 out rest
        else if quad = 1 then a2bBase64 2 (v % 16) 0 (UInt8.ofNat (left * 4 + v / 16) :: out) rest
        else if quad = 2 then a2bBase64 3 (v % 4) 0 (UInt8.ofNat (left * 16 + v / 4) :: out) rest
        else a2bBase64 0 0 0 (UInt8.ofNat (left * 64 + v) :: out) rest

theorem b64Value_b64Char : ∀ v < 64, b64Value (b64Char v) = some v ∧ b64Char v ≠ '=' := by
  decide +kernel

/-- One character of the alphabet. -/
theorem a2bBase64_b64Char {v : ℕ} (hv : v < 64) (quad left pads : ℕ) (out : List UInt8)
    (rest : List Char) :
    a2bBase64 quad left pads out (b64Char v :: rest) =
      if quad = 0 then a2bBase64 1 v 0 out rest
      else if quad = 1 then a2bBase64 2 (v % 16) 0 (UInt8.ofNat (left * 4 + v / 16) :: out) rest
      else if quad = 2 then a2bBase64 3 (v % 4) 0 (UInt8.ofNat (left * 16 + v / 4) :: out) rest
      else a2bBase64 0 0 0 (UInt8.ofNat (left * 64 + v) :: out) rest := by
  obtain ⟨hval, hne⟩ := b64Value_b64Char v hv
  rw [a2bBase64, if_neg hne, hval]

theorem ofNat_eq_of_toNat {a : UInt8} {n : ℕ} (h : n = a.toNat) : UInt8.ofNat n = a := by
  rw [h, UInt8.ofNat_toNat]

/-- Base64 text is read back. -/
theorem a2bBase64_b64encode (l out : List UInt8) :
    a2bBase64 0 0 0 out (b64encode l) = .ok (out.reverse ++ l) := by
  fun_induction b64encode l generalizing out with
  | case1 => simp [a2bBase64]
  | case2 a =>
    have ha := a.toNat_lt
    rw [a2bBase64_b64Char (by omega), if_pos rfl, a2bBase64_b64Char (by omega),
      if_neg Nat.one_ne_zero, if_pos rfl, ofNat_eq_of_toNat (a := a) (by omega)]
    simp [a2bBase64]
  | case3 a b =>
    have ha := a.toNat_lt
    have hb := b.toNat_lt
    rw [a2bBase64_b64Char (by omega), if_pos rfl, a2bBase64_b64Char (by omega),
      if_neg Nat.one_ne_zero, if_pos rfl, a2bBase64_b64Char (by omega), if_neg (by decide),
      if_neg (by decide), if_pos rfl, ofNat_eq_of_toNat (a := b) (by omega),
      ofNat_eq_of_toNat (a := a) (by omega)]
    simp [a2bBase64]
  | case4 a b c rest ih =>
    have ha := a.toNat_lt
    have hb := b.toNat_lt
    have hc := c.toNat_lt
    rw [a2bBase64_b64Char (by omega), if_pos rfl, a2bBase64_b64Char (by omega),
      if_neg Nat.one_ne_zero, if_pos rfl, a2bBase64_b64Char (by omega), if_neg (by decide),
      if_neg (by decide), if_pos rfl, a2bBase64_b64Char (by omega), if_neg (by decide),
      if_neg (by decide), if_neg (by decide), ih, ofNat_eq_of_toNat (a := c) (by omega),
      ofNat_eq_of_toNat (a := b) (by omega), ofNat_eq_of_toNat (a := a) (by omega)]
    simp

theorem b64encode_injective : Function.Injective b64encode := by
  intro l l' h
  have hread := a2bBase64_b64encode l []
  rw [h, a2bBase64_b64encode l' []] at hread
  exact (Except.ok.inj hread).symm
