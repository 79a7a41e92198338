import Mathlib.Data.List.TakeWhile
import AnonyMus.Lib.Bytes

/-!
# Base32

RFC 4648 base32, as the `base64` module of Python encodes and decodes it: the
decoder knows the upper case alphabet only.

* `b32encode`, `b32decode` — the coders;
* `mem_b32encode` — the characters of unpadded text;
* `b32decode_eq_none` — one character outside the alphabet is refused;
* `b32decode_of_mem` — whole quanta of the alphabet are decoded;
* `getLast?_b32encode` — the last character depends on the last byte only.
-/

def b32Alphabet : List Char := "ABCDEFGHIJKLMNOPQRSTUVWXYZ234567".toList

def b32Char (v : ℕ) : Char := b32Alphabet[v]?.getD 'A'

/-- The number that the bytes are the digits of. -/
def ofDigits256 (bytes : List UInt8) : ℕ := bytes.foldl (fun n b => n * 256 + b.toNat) 0

/-- The eight characters of a number below 2⁴⁰. -/
def b32Quantum (n : ℕ) : List Char := (List.range 8).map fun i => b32Char (n / 32 ^ (7 - i) % 32)

/-- Five bytes at a time; what is left is filled up with zeros, and the characters that come from
these alone are padding. -/
def b32encode : List UInt8 → List Char
  | [] => []
  | [a] => (b32Quantum (ofDigits256 [a, 0, 0, 0, 0])).take 2 ++ List.replicate 6 '='
  | [a, b] => (b32Quantum (ofDigits256 [a, b, 0, 0, 0])).take 4 ++ List.replicate 4 '='
  | [a, b, c] => (b32Quantum (ofDigits256 [a, b, c, 0, 0])).take 5 ++ List.replicate 3 '='
  | [a, b, c, d] => (b32Quantum (ofDigits256 [a, b, c, d, 0])).take 7 ++ List.replicate 1 '='
  | a :: b :: c :: d :: e :: rest => b32Quantum (ofDigits256 [a, b, c, d, e]) ++ b32encode rest

def b32Value (c : Char) : Option ℕ :=
  if c ∈ b32Alphabet then some (b32Alphabet.idxOf c) else none

/-- The number that the characters are the digits of; none if one is not a digit. -/
def ofDigits32 : List Char → ℕ → Option ℕ
  | [], n => some n
  | c :: cs, n => (b32Value c).bind fun v => ofDigits32 cs (n * 32 + v)

/-- Eight characters at a time. -/
def b32Quanta : List Char → Option (List ℕ)
  | [] => some []
  | a :: b :: c :: d :: e :: f :: g :: h :: rest =>
    (ofDigits32 [a, b, c, d, e, f, g, h] 0).bind fun n => (b32Quanta rest).map (n :: ·)
  | short => (ofDigits32 short 0).map ([·])

/-- `n.to_bytes(5, "big")`. -/
def toBytes5 (n : ℕ) : List UInt8 := (List.range 5).map fun i => UInt8.ofNat (n / 256 ^ (4 - i))

/-- `base64.b32decode`; none if it raises. -/
def b32decode (s : List Char) : Option (List UInt8) :=
  let digits := (s.reverse.dropWhile (· = '=')).reverse
  let padchars := s.length - digits.length
  if s.length % 8 ≠ 0 then none
  else (b32Quanta digits).bind fun quanta =>
    if padchars ∉ [0, 1, 3, 4, 6] then none
    else match padchars, quanta.getLast? with
      -- the last quantum ends in zeros that stand for the padding
      | padchars + 1, some last =>
        some (quanta.dropLast.flatMap toBytes5 ++
          (toBytes5 (last * 32 ^ (padchars + 1))).take ((43 - 5 * (padchars + 1)) / 8))
      | _, _ => some (quanta.flatMap toBytes5)

example : b32decode "MFRGGZDFMZTWQ===".toList = some "abcdefgh".toUTF8.toList := by decide +kernel

/-! ## Encoding -/

theorem b32Char_mem (v : ℕ) : b32Char v ∈ b32Alphabet := by
  unfold b32Char
  rcases h : b32Alphabet[v]? with _ | c
  · exact List.mem_of_elem_eq_true rfl
  · exact List.mem_of_getElem? h

theorem length_b32Quantum (n : ℕ) : (b32Quantum n).length = 8 := by
  simp [b32Quantum]

theorem length_b32encode {l : List UInt8} (h : l.length % 5 = 0) :
    (b32encode l).length = l.length / 5 * 8 := by
  fun_induction b32encode l with
  | case1 => rfl
  | case2 | case3 | case4 | case5 => simp at h
  | case6 a b c d e rest ih =>
    simp only [List.length_cons] at h ⊢
    rw [List.length_append, length_b32Quantum, ih (by omega)]
    omega

theorem mem_b32Quantum {n : ℕ} {c : Char} (hc : c ∈ b32Quantum n) : c ∈ b32Alphabet := by
  obtain ⟨i, -, rfl⟩ := List.mem_map.mp hc
  exact b32Char_mem _

/-- Text without padding has characters of the alphabet only. -/
theorem mem_b32encode {l : List UInt8} (h : l.length % 5 = 0) {c : Char} (hc : c ∈ b32encode l) :
    c ∈ b32Alphabet := by
  fun_induction b32encode l with
  | case1 => cases hc
  | case2 | case3 | case4 | case5 => simp at h
  | case6 a b c' d e rest ih =>
    simp only [List.length_cons] at h
    rcases List.mem_append.mp hc with hc | hc
    · exact mem_b32Quantum hc
    · exact ih (by omega) hc

/-- What is not of the alphabet is padding. -/
theorem mem_b32encode_or {l : List UInt8} {c : Char} (hc : c ∈ b32encode l) :
    c ∈ b32Alphabet ∨ c = '=' := by
  have hshort : ∀ {n take pad : ℕ},
      c ∈ (b32Quantum n).take take ++ List.replicate pad '=' → c ∈ b32Alphabet ∨ c = '=' := by
    intro n take pad hc
    rcases List.mem_append.mp hc with hc | hc
    · exact .inl (mem_b32Quantum (List.mem_of_mem_take hc))
    · exact .inr (List.eq_of_mem_replicate hc)
  fun_induction b32encode l with
  | case1 => cases hc
  | case2 | case3 | case4 | case5 => exact hshort hc
  | case6 a b c' d e rest ih =>
    rcases List.mem_append.mp hc with hc | hc
    · exact .inl (mem_b32Quantum hc)
    · exact ih hc

/-- Text of five bytes or more begins with a character of the alphabet. -/
theorem exists_mem_b32encode {l : List UInt8} (h : 5 ≤ l.length) :
    ∃ c ∈ b32encode l, c ∈ b32Alphabet := by
  fun_cases b32encode l with
  | case1 | case2 | case3 | case4 | case5 => simp at h
  | case6 a b c d e rest =>
    have hpos : 0 < (b32Quantum (ofDigits256 [a, b, c, d, e])).length := by
      rw [length_b32Quantum]
      omega
    obtain ⟨c', hc'⟩ := List.exists_mem_of_length_pos hpos
    exact ⟨c', List.mem_append_left _ hc', mem_b32Quantum hc'⟩

theorem getLast?_b32Quantum (n : ℕ) : (b32Quantum n).getLast? = some (b32Char (n % 32)) := by
  simp [b32Quantum, List.range_succ]

/-- The last five bits make the last character. -/
theorem getLast?_b32encode {l : List UInt8} (h : (l.length + 1) % 5 = 0) (b : UInt8) :
    (b32encode (l ++ [b])).getLast? = some (b32Char (b.toNat % 32)) := by
  fun_induction b32encode l with
  | case1 | case2 | case3 | case4 => simp at h
  | case5 a b' c d =>
    have hlast : ofDigits256 [a, b', c, d, b] % 32 = b.toNat % 32 := by
      simp only [ofDigits256, List.foldl_cons, List.foldl_nil]
      omega
    simp only [List.cons_append, List.nil_append, b32encode, List.append_nil]
    rw [getLast?_b32Quantum, hlast]
  | case6 a b' c d e rest ih =>
    simp only [List.length_cons] at h
    have hrest := ih (by omega)
    simp only [List.cons_append, b32encode]
    rw [List.getLast?_append, hrest, Option.some_or]

/-! ## Decoding -/

theorem ofDigits32_eq_some {cs : List Char} {n m : ℕ} (h : ofDigits32 cs n = some m) :
    ∀ c ∈ cs, c ∈ b32Alphabet := by
  induction cs generalizing n with
  | nil => simp
  | cons c cs ih =>
    rw [ofDigits32, Option.bind_eq_some_iff] at h
    obtain ⟨v, hv, hrest⟩ := h
    rintro c' (_ | ⟨_, hc'⟩)
    · by_contra hnot
      rw [b32Value, if_neg hnot] at hv
      cases hv
    · exact ih hrest c' hc'

theorem b32Quanta_eq_some {cs : List Char} {ns : List ℕ} (h : b32Quanta cs = some ns) :
    ∀ c ∈ cs, c ∈ b32Alphabet := by
  fun_induction b32Quanta cs generalizing ns with
  | case1 => simp
  | case2 a b c d e f g h' rest ih =>
    rw [Option.bind_eq_some_iff] at h
    obtain ⟨n, hn, hrest⟩ := h
    obtain ⟨ns', hns', -⟩ := Option.map_eq_some_iff.mp hrest
    intro x hx
    have hsplit : x ∈ [a, b, c, d, e, f, g, h'] ++ rest := hx
    rcases List.mem_append.mp hsplit with hx | hx
    · exact ofDigits32_eq_some hn x hx
    · exact ih hns' x hx
  | case3 short _ _ =>
    obtain ⟨n, hn, -⟩ := Option.map_eq_some_iff.mp h
    exact ofDigits32_eq_some hn

/-- Text with a character that is neither in the alphabet nor padding is refused. -/
theorem b32decode_eq_none {s : List Char} {c : Char} (hc : c ∈ s) (hpad : c ≠ '=')
    (hnot : c ∉ b32Alphabet) : b32decode s = none := by
  have hdigits : c ∈ (s.reverse.dropWhile (· = '=')).reverse := by
    rw [List.mem_reverse]
    have hsplit := List.takeWhile_append_dropWhile (p := (· = '=')) (l := s.reverse)
    have hmem : c ∈ s.reverse.takeWhile (· = '=') ++ s.reverse.dropWhile (· = '=') := by
      rw [hsplit]
      exact List.mem_reverse.mpr hc
    rcases List.mem_append.mp hmem with h | h
    · have hpadded := List.mem_takeWhile_imp h
      exact absurd (of_decide_eq_true hpadded) hpad
    · exact h
  have hquanta : b32Quanta (s.reverse.dropWhile (· = '=')).reverse = none := by
    rw [Option.eq_none_iff_forall_ne_some]
    intro ns hns
    exact hnot (b32Quanta_eq_some hns c hdigits)
  unfold b32decode
  dsimp only
  rw [hquanta]
  split_ifs <;> rfl

theorem ofDigits32_of_mem {cs : List Char} (h : ∀ c ∈ cs, c ∈ b32Alphabet) (n : ℕ) :
    ∃ m, ofDigits32 cs n = some m := by
  induction cs generalizing n with
  | nil => exact ⟨n, rfl⟩
  | cons c cs ih =>
    obtain ⟨hc, hcs⟩ := List.forall_mem_cons.mp h
    obtain ⟨m, hm⟩ := ih hcs (n * 32 + b32Alphabet.idxOf c)
    refine ⟨m, ?_⟩
    rw [ofDigits32, b32Value, if_pos hc, Option.bind_some, hm]

theorem b32Quanta_of_mem {cs : List Char} (h : ∀ c ∈ cs, c ∈ b32Alphabet)
    (hlength : cs.length % 8 = 0) : ∃ ns, b32Quanta cs = some ns ∧ ns.length = cs.length / 8 := by
  fun_induction b32Quanta cs with
  | case1 => exact ⟨[], rfl, rfl⟩
  | case2 a b c d e f g h' rest ih =>
    obtain ⟨n, hn⟩ := @ofDigits32_of_mem [a, b, c, d, e, f, g, h']
      (fun x hx => h x (by simp at hx ⊢; tauto)) 0
    simp only [List.length_cons] at hlength
    obtain ⟨ns, hns, hcount⟩ := ih (fun x hx => h x (by simp; tauto)) (by omega)
    refine ⟨n :: ns, ?_, ?_⟩
    · rw [hn, Option.bind_some, hns, Option.map_some]
    · simp only [List.length_cons]
      omega
  | case3 short hnil hlong =>
    -- fewer than eight characters, and not none
    exfalso
    rcases short with _ | ⟨a, _ | ⟨b, _ | ⟨c, _ | ⟨d, _ | ⟨e, _ | ⟨f, _ | ⟨g, _ | ⟨h', rest⟩⟩⟩⟩⟩⟩⟩⟩
    · exact hnil rfl
    all_goals first | exact hlong _ _ _ _ _ _ _ _ _ rfl | exact absurd hlength (by simp)

/-- Text of the alphabet alone, in whole quanta, is decoded, to five bytes a quantum. -/
theorem b32decode_of_mem {s : List Char} (h : ∀ c ∈ s, c ∈ b32Alphabet) (hlength : s.length % 8 = 0) :
    ∃ bytes, b32decode s = some bytes ∧ bytes.length = s.length / 8 * 5 := by
  have hdigits : (s.reverse.dropWhile (· = '=')).reverse = s := by
    have hpad : '=' ∉ b32Alphabet := by decide
    rw [List.dropWhile_eq_self_iff.mpr, List.reverse_reverse]
    intro hpos hlast
    have hmem := h _ (List.mem_reverse.mp (List.getElem_mem hpos))
    exact hpad (of_decide_eq_true hlast ▸ hmem)
  obtain ⟨ns, hns, hcount⟩ := b32Quanta_of_mem h hlength
  refine ⟨ns.flatMap toBytes5, ?_, ?_⟩
  · unfold b32decode
    dsimp only
    rw [hdigits, if_neg (not_not_intro hlength), hns, Nat.sub_self]
    rfl
  · rw [List.length_flatMap, ← hcount]
    simp [toBytes5]
