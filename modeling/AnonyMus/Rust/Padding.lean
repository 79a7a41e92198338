import Mathlib.Data.List.Basic
import AnonyMus.Rust.Crypto

/-!
# Rust core — padding

`core/rust/src/protocol/padding.rs` on byte strings. A call that may panic is a
computation in `MayPanic`, so that an index out of range is an outcome of its
own.

* `fill` — the number of padding bytes, and what determines it;
* `pad_eq_ok_iff`, `unpad_eq_ok_iff` — what the two functions accept;
* `pad_unpad_iff` — a payload is read back unless its padding is a whole block
  of 256 bytes, whose length does not fit into the padding byte;
* `unpad_canonical` — `unpad` does not panic, and accepts encodings only.
-/

namespace AnonyMus.Rust

/-! ## Panics -/

/-- Calls that return `Ok` or `Err`, or panic: `none` is the panic. -/
abbrev MayPanic := ExceptT AnonymusError Option

/-- `usize` subtraction. -/
def usizeSub (n m : ℕ) : Option ℕ := if m ≤ n then some (n - m) else none

/-- `&bytes[start..]`. -/
def sliceFrom (bytes : List UInt8) (start : ℕ) : Option (List UInt8) :=
  if start ≤ bytes.length then some (bytes.drop start) else none

/-- `&bytes[..stop]`. -/
def sliceTo (bytes : List UInt8) (stop : ℕ) : Option (List UInt8) :=
  if stop ≤ bytes.length then some (bytes.take stop) else none

section

variable {α β : Type}

theorem lift_some_bind (a : α) (f : α → MayPanic β) : ((liftM (some a) : MayPanic α) >>= f) = f a :=
  rfl

end

/-! ## The code -/

/-- Pad a message payload to the next multiple of `blockSize` using PKCS#7 padding. -/
def pad (payload : List UInt8) (blockSize : ℕ) : Except AnonymusError (List UInt8) :=
  if blockSize = 0 ∨ 256 < blockSize then
    .error (.internal s!"invalid block size: {blockSize}. Must be in 1..=256")
  else
    let padLen := blockSize - payload.length % blockSize
    .ok (payload ++ List.replicate padLen (UInt8.ofNat padLen))

/-- The body of the loop of `unpad`. -/
def checkPadding (padLen : ℕ) (byte : UInt8) : MayPanic Unit :=
  if byte.toNat ≠ padLen then throw (.decrypt "invalid PKCS#7 padding bytes") else pure ()

/-- Unpad a message payload, removing the PKCS#7 padding. -/
def unpad (padded : List UInt8) (blockSize : ℕ) : MayPanic (List UInt8) := do
  if padded = [] then
    throw (.decrypt "padded payload is empty")
  if blockSize = 0 ∨ 256 < blockSize then
    throw (.internal s!"invalid block size: {blockSize}. Must be in 1..=256")
  if ¬ blockSize ∣ padded.length then
    throw (.decrypt
      s!"payload length {padded.length} is not a multiple of block size {blockSize}")
  let last ← padded.getLast?
  let padLen := last.toNat
  if padLen = 0 ∨ blockSize < padLen then
    throw (.decrypt s!"invalid padding length value: {padLen}")
  -- verify all padding bytes match `padLen`
  let startIdx ← usizeSub padded.length padLen
  let padding ← sliceFrom padded startIdx
  padding.forM (checkPadding padLen)
  sliceTo padded startIdx

/-! ## The number of padding bytes -/

/-- How many bytes are missing from `n` to the next multiple of `b`: a whole
block where `n` is one. -/
def fill (b n : ℕ) : ℕ := b - n % b

section

variable {b n k : ℕ}

theorem fill_pos (hb : 0 < b) : 0 < fill b n := by
  have hmod := Nat.mod_lt n hb
  unfold fill
  omega

theorem fill_le : fill b n ≤ b := Nat.sub_le ..

theorem dvd_add_fill (hb : 0 < b) : b ∣ n + fill b n := by
  have hmod := Nat.mod_lt n hb
  have hdiv := Nat.div_add_mod n b
  refine ⟨n / b + 1, ?_⟩
  unfold fill
  rw [Nat.mul_add, Nat.mul_one]
  omega

/-- A block boundary determines the number of bytes up to it. -/
theorem eq_fill (hk : 0 < k) (hkb : k ≤ b) (hdvd : b ∣ n + k) : k = fill b n := by
  have hb : 0 < b := by omega
  obtain ⟨q, hq⟩ := hdvd
  have hmod := Nat.mod_lt n hb
  have hdiv := Nat.div_add_mod n b
  -- both boundaries are the first one after `n`
  have hq' : q = n / b + 1 := by
    have hlt : b * (n / b) < b * q := by omega
    have hle : b * q < b * (n / b + 2) := by
      rw [Nat.mul_add]
      omega
    have h1 := Nat.lt_of_mul_lt_mul_left hlt
    have h2 := Nat.lt_of_mul_lt_mul_left hle
    omega
  rw [hq', Nat.mul_add] at hq
  unfold fill
  omega

theorem fill_eq_self_iff (hb : 0 < b) : fill b n = b ↔ b ∣ n := by
  have hmod := Nat.mod_lt n hb
  rw [Nat.dvd_iff_mod_eq_zero]
  unfold fill
  omega

end

/-! ## What the two functions accept -/

variable {b : ℕ} {payload padded : List UInt8}

theorem pad_of_accepted (hb : 0 < b) (hb256 : b ≤ 256) (payload : List UInt8) :
    pad payload b = .ok (payload ++ List.replicate (fill b payload.length)
      (UInt8.ofNat (fill b payload.length))) :=
  if_neg (by omega)

theorem pad_eq_ok_iff :
    pad payload b = .ok padded ↔ 0 < b ∧ b ≤ 256 ∧
      padded = payload ++ List.replicate (fill b payload.length)
        (UInt8.ofNat (fill b payload.length)) := by
  by_cases hb : 0 < b ∧ b ≤ 256
  · rw [pad_of_accepted hb.1 hb.2, Except.ok.injEq]
    constructor
    · intro h
      exact ⟨hb.1, hb.2, h.symm⟩
    · rintro ⟨-, -, h⟩
      exact h.symm
  · rw [pad, if_pos (by omega)]
    constructor
    · intro h
      cases h
    · rintro ⟨h0, h256, -⟩
      exact absurd ⟨h0, h256⟩ hb

/-- The loop accepts the bytes that all hold the length of the padding. -/
theorem run_checkPadding (padLen : ℕ) (padding : List UInt8) :
    (forM padding (checkPadding padLen)).run =
      if padding.all fun byte => byte.toNat == padLen then some (.ok ())
      else some (.error (.decrypt "invalid PKCS#7 padding bytes")) := by
  induction padding with
  | nil => simp
  | cons byte rest ih =>
    by_cases hbyte : byte.toNat = padLen
    · simp [List.forM_cons, checkPadding, hbyte, ih]
    · simp [List.forM_cons, checkPadding, hbyte]

/-- A nonempty string of whole blocks is as long as a block. -/
theorem block_le_length {last : UInt8} (hdvd : b ∣ padded.length)
    (hlast : padded.getLast? = some last) : b ≤ padded.length := by
  refine Nat.le_of_dvd (List.length_pos_iff.mpr ?_) hdvd
  rintro rfl
  cases hlast

/-- Once the length and the last byte are admissible, `unpad` is down to the
other padding bytes: the indices lie within the string. -/
theorem unpad_of_last {last : UInt8} (hb : 0 < b) (hb256 : b ≤ 256) (hdvd : b ∣ padded.length)
    (hlast : padded.getLast? = some last) (h0 : 0 < last.toNat) (hle : last.toNat ≤ b) :
    (unpad padded b).run =
      if (padded.drop (padded.length - last.toNat)).all fun byte => byte.toNat == last.toNat then
        some (.ok (padded.take (padded.length - last.toNat)))
      else some (.error (.decrypt "invalid PKCS#7 padding bytes")) := by
  have hne : padded ≠ [] := by
    rintro rfl
    cases hlast
  have hblock := block_le_length hdvd hlast
  have hsub : usizeSub padded.length last.toNat = some (padded.length - last.toNat) :=
    if_pos (by omega)
  have hfrom : sliceFrom padded (padded.length - last.toNat) =
      some (padded.drop (padded.length - last.toNat)) := if_pos (by omega)
  have hto : sliceTo padded (padded.length - last.toNat) =
      some (padded.take (padded.length - last.toNat)) := if_pos (by omega)
  have hrange : ¬ (b = 0 ∨ 256 < b) := by omega
  have hlen : ¬ (last.toNat = 0 ∨ b < last.toNat) := by omega
  simp only [unpad, hne, hrange, hdvd, hlast, hlen, if_false, not_true_eq_false,
    lift_some_bind, hsub, hfrom, hto, List.forM_eq_forM, ExceptT.run_bind, run_checkPadding]
  split <;> rfl

/-- `unpad` rejects with an error, or has passed every check. -/
theorem unpad_cases (padded : List UInt8) (b : ℕ) :
    (∃ e, (unpad padded b).run = some (.error e)) ∨
      ∃ last, 0 < b ∧ b ≤ 256 ∧ b ∣ padded.length ∧ padded.getLast? = some last ∧
        0 < last.toNat ∧ last.toNat ≤ b := by
  by_cases hne : padded = []
  · exact Or.inl ⟨_, by simp only [unpad, hne, if_true]; rfl⟩
  by_cases hrange : b = 0 ∨ 256 < b
  · exact Or.inl ⟨_, by simp only [unpad, hne, hrange, if_false, if_true]; rfl⟩
  by_cases hdvd : b ∣ padded.length
  swap
  · exact Or.inl ⟨_, by
      simp only [unpad, hne, hrange, hdvd, if_false, not_false_eq_true, if_true]; rfl⟩
  have hlast := List.getLast?_eq_some_getLast hne
  by_cases hlen : (padded.getLast hne).toNat = 0 ∨ b < (padded.getLast hne).toNat
  · exact Or.inl ⟨_, by
      simp only [unpad, hne, hrange, hdvd, hlast, hlen, if_false, not_true_eq_false,
        lift_some_bind, if_true]; rfl⟩
  · exact Or.inr ⟨_, by omega, by omega, hdvd, hlast, by omega, by omega⟩

theorem unpad_eq_ok_iff :
    (unpad padded b).run = some (.ok payload) ↔ 0 < b ∧ b ≤ 256 ∧ b ∣ padded.length ∧
      ∃ k, 0 < k ∧ k ≤ b ∧ k < 256 ∧ padded = payload ++ List.replicate k (UInt8.ofNat k) := by
  constructor
  · intro h
    -- either a check rejects the input, or only the padding bytes remain to be compared
    rcases unpad_cases padded b with ⟨e, he⟩ | ⟨last, hb, hb256, hdvd, hlast, h0, hle⟩
    · rw [he] at h
      cases h
    · rw [unpad_of_last hb hb256 hdvd hlast h0 hle] at h
      split at h
      case isFalse => cases h
      case isTrue hall =>
        have hpay : padded.take (padded.length - last.toNat) = payload := by
          simpa using h
        have hpadding : padded.drop (padded.length - last.toNat) =
            List.replicate last.toNat last := by
          have hblock := block_le_length hdvd hlast
          rw [List.eq_replicate_iff, List.length_drop]
          -- the last block holds all bytes of the padding, so `drop` takes exactly them
          refine ⟨by omega, fun byte hbyte => UInt8.toNat_inj.mp ?_⟩
          exact beq_iff_eq.mp (List.all_eq_true.mp hall byte hbyte)
        refine ⟨hb, hb256, hdvd, last.toNat, h0, hle, last.toNat_lt, ?_⟩
        rw [UInt8.ofNat_toNat, ← hpay, ← hpadding, List.take_append_drop]
  · rintro ⟨hb, hb256, hdvd, k, h0, hle, hlt, hpad⟩
    have hlast : padded.getLast? = some (UInt8.ofNat k) := by
      rw [hpad, List.getLast?_append, List.getLast?_replicate, if_neg (by omega)]
      rfl
    -- a padding byte holds its count, which fits in it
    have hk : (UInt8.ofNat k).toNat = k := UInt8.toNat_ofNat_of_lt' (by omega)
    rw [unpad_of_last hb hb256 hdvd hlast (by omega) (by omega), hk]
    -- the count splits the input where it was joined
    have hlen : padded.length - k = payload.length := by simp [hpad]
    rw [hlen, hpad, List.drop_left, List.take_left, if_pos]
    rw [List.all_eq_true]
    intro byte hbyte
    rw [List.eq_of_mem_replicate hbyte, hk]
    exact beq_self_eq_true k

/-! ## Round trip -/

/-- **When a padded payload is read back.** Padding with an accepted block size
succeeds and reaches a later block boundary. The payload comes back unless it
ends on a boundary of blocks of 256 bytes: the length of its padding is then
256, which the padding byte holds as 0. -/
theorem pad_unpad_iff (payload : List UInt8) {b : ℕ} (hb : 0 < b) (hb256 : b ≤ 256) :
    (∃ padded, pad payload b = .ok padded ∧ b ∣ padded.length ∧ 0 < padded.length ∧
        payload.length < padded.length ∧ (unpad padded b).run = some (.ok payload)) ↔
      ¬ (b = 256 ∧ 256 ∣ payload.length) := by
  have hpos := fill_pos (n := payload.length) hb
  have hle := fill_le (b := b) (n := payload.length)
  have hwhole := fill_eq_self_iff (n := payload.length) hb
  constructor
  · rintro ⟨padded, hpad, -, -, -, hread⟩ ⟨rfl, hdvd⟩
    obtain ⟨-, -, rfl⟩ := pad_eq_ok_iff.mp hpad
    obtain ⟨-, -, -, k, -, -, hlt, heq⟩ := unpad_eq_ok_iff.mp hread
    -- the padding read back would be 256 bytes long as well
    have hlen := congrArg List.length heq
    simp only [List.length_append, List.length_replicate] at hlen
    rw [hwhole.mpr hdvd] at hlen
    omega
  · intro hshort
    have hlt : fill b payload.length < 256 := by
      by_contra hge
      have hb' : b = 256 := by omega
      refine hshort ⟨hb', ?_⟩
      rw [← hb', ← hwhole]
      omega
    refine ⟨_, pad_of_accepted hb hb256 payload, ?_⟩
    simp only [List.length_append, List.length_replicate]
    have hdvd := dvd_add_fill (n := payload.length) hb
    refine ⟨hdvd, by omega, by omega, unpad_eq_ok_iff.mpr ⟨hb, hb256, ?_, _, hpos, hle, hlt, rfl⟩⟩
    rwa [List.length_append, List.length_replicate]

/-- The empty payload in one block of 256 bytes is not read back. -/
theorem pad_unpad_fails :
    ¬ ∃ padded, pad [] 256 = .ok padded ∧ 256 ∣ padded.length ∧ 0 < padded.length ∧
      ([] : List UInt8).length < padded.length ∧ (unpad padded 256).run = some (.ok []) := by
  rintro ⟨padded, hpad, -, -, -, hread⟩
  obtain ⟨-, -, rfl⟩ := pad_eq_ok_iff.mp hpad
  obtain ⟨-, -, -, k, -, -, hlt, heq⟩ := unpad_eq_ok_iff.mp hread
  have hfill : fill 256 ([] : List UInt8).length = 256 := rfl
  have hlen := congrArg List.length heq
  rw [hfill] at hlen
  simp only [List.length_append, List.length_replicate] at hlen
  omega

theorem pad_unpad_iff_hello :
    (∃ padded, pad [104, 105] 16 = .ok padded ∧ 16 ∣ padded.length ∧ 0 < padded.length ∧
        [104, 105].length < padded.length ∧ (unpad padded 16).run = some (.ok [104, 105])) ↔
      ¬ (16 = 256 ∧ 256 ∣ [104, 105].length) :=
  pad_unpad_iff [104, 105] (by decide) (by decide)

/-! ## Canonical encodings -/

/-- What `unpad` accepts is the encoding of what it returns. -/
theorem pad_of_unpad (h : (unpad padded b).run = some (.ok payload)) :
    pad payload b = .ok padded := by
  obtain ⟨hb, hb256, hdvd, k, h0, hle, -, rfl⟩ := unpad_eq_ok_iff.mp h
  rw [List.length_append, List.length_replicate] at hdvd
  rw [pad_of_accepted hb hb256, ← eq_fill h0 hle hdvd]

/-- **Padding is canonical.** Whatever the byte string and the block size,
`unpad` does not panic, and what it accepts is the one encoding of the payload
it returns; every other byte string is rejected with an error. -/
theorem unpad_canonical (padded : List UInt8) (b : ℕ) :
    (unpad padded b).run ≠ none ∧
      (∀ payload, (unpad padded b).run = some (.ok payload) → pad payload b = .ok padded) ∧
      (∀ payload, (unpad padded b).run = some (.ok payload) →
        ∀ padded', (unpad padded' b).run = some (.ok payload) → padded' = padded) ∧
      ((∀ payload, pad payload b ≠ .ok padded) →
        ∃ e, (unpad padded b).run = some (.error e)) := by
  -- no input panics: the checks come before the index that could be out of range
  have hrun : (∃ e, (unpad padded b).run = some (.error e)) ∨
      ∃ payload, (unpad padded b).run = some (.ok payload) := by
    rcases unpad_cases padded b with he | ⟨last, hb, hb256, hdvd, hlast, h0, hle⟩
    · exact Or.inl he
    · rw [unpad_of_last hb hb256 hdvd hlast h0 hle]
      split
      · exact Or.inr ⟨_, rfl⟩
      · exact Or.inl ⟨_, rfl⟩
  refine ⟨?_, fun payload => pad_of_unpad, ?_, ?_⟩
  · intro hnone
    rcases hrun with ⟨e, he⟩ | ⟨payload, hok⟩
    · rw [hnone] at he
      cases he
    · rw [hnone] at hok
      cases hok
  -- two encodings of one payload are both `pad` of it
  · intro payload h padded' h'
    have heq := (pad_of_unpad h').symm.trans (pad_of_unpad h)
    exact Except.ok.inj heq
  · intro hother
    rcases hrun with he | ⟨payload, hok⟩
    · exact he
    · exact absurd (pad_of_unpad hok) (hother payload)

end AnonyMus.Rust
