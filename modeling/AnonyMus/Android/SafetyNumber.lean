import AnonyMus.Python.SafetyNumber

/-!
# Android client — the safety number

`computeSafetyNumber` of `CryptoUtils.kt`, which is to match the function of the
Python core. It hashes the two keys once, without a counter, and reads 16-bit
windows, two and a half bytes apart.

* `computeSafetyNumber` — the function;
* `sortedUnits_eq` — base64 keys are sorted as Python sorts them;
* `computeSafetyNumber_eq_windows` — it shows twelve groups, none of them above
  65535;
* `eq_python_iff` — both clients show one number exactly if the windows agree.
-/

namespace AnonyMus.Android

open Python (Library safetyData sampledWindows groupOf modulus)

/-! ## The function -/

/-- The UTF-16 code units of a character. -/
def codeUnits (c : Char) : List ℕ :=
  let n := c.toNat
  if n < 0x10000 then [n]
  else [0xD800 + (n - 0x10000) / 0x400, 0xDC00 + (n - 0x10000) % 0x400]

/-- `listOf(a, b).sorted()`: texts are compared by their code units. -/
def sortedUnits (a b : String) : String × String :=
  if b.toList.flatMap codeUnits < a.toList.flatMap codeUnits then (b, a) else (a, b)

/-- The two bytes from an index on. -/
def window16 (h : List UInt8) (byteIdx : ℕ) : ℕ :=
  (h.getD byteIdx 0).toNat <<< 8 ||| (h.getD (byteIdx + 1) 0).toNat

/-- The `while`, in at most `fuel` rounds. `(i * 2.5).toInt()` is exact. -/
def groupLoop (h : List UInt8) : (fuel i : ℕ) → List String → List String
  | 0, _, groups => groups
  | fuel + 1, i, groups =>
    if groups.length < 12 then
      let byteIdx := i * 5 / 2
      if byteIdx + 1 ≥ h.length then groups
      else
        let v := window16 h byteIdx
        groupLoop h fuel (i + 1) (groups ++ [zfill 5 (v % 100000)])
    else groups

/-- Each round appends a group, so that there are no more than twelve. -/
def computeSafetyNumber (sha256 : List UInt8 → Bytes 32)
    (myPubKeyBase64 theirPubKeyBase64 : String) : String :=
  let sorted := sortedUnits myPubKeyBase64 theirPubKeyBase64
  let data := (sorted.1 ++ sorted.2).toUTF8.toList
  let h := (sha256 data).1
  " ".intercalate (groupLoop h 13 0 [])

/-- The windows the loop reads. -/
def windows16 (h : List UInt8) : List ℕ :=
  (List.range 12).map fun i => window16 h (i * 5 / 2)

/-! ## The two clients sort alike -/

theorem flatMap_codeUnits {s : List Char} (hs : ∀ c ∈ s, c.toNat < 128) :
    s.flatMap codeUnits = s.map Char.toNat := by
  induction s with
  | nil => rfl
  | cons c s ih =>
    obtain ⟨hc, hs⟩ := List.forall_mem_cons.mp hs
    have hone : codeUnits c = [c.toNat] := if_pos (by omega)
    rw [List.flatMap_cons, hone, ih hs]
    rfl

theorem map_toNat_lt_iff {s t : List Char} : s.map Char.toNat < t.map Char.toNat ↔ s < t := by
  have hmono : ∀ {s t : List Char}, s < t → s.map Char.toNat < t.map Char.toNat :=
    List.map_lt fun _ _ h => h
  constructor
  · intro hlt
    by_contra hnot
    -- otherwise they are equal or the other way round
    rcases lt_trichotomy s t with h | rfl | h
    · exact hnot h
    · exact List.lt_irrefl _ hlt
    · exact List.lt_asymm hlt (hmono h)
  · exact hmono

/-- Base64 text is ASCII, where code units are code points. -/
theorem sortedUnits_eq (raw raw' : List UInt8) :
    sortedUnits (String.ofList (b64encode raw)) (String.ofList (b64encode raw')) =
      Python.sortedPair (String.ofList (b64encode raw)) (String.ofList (b64encode raw')) := by
  have hascii : ∀ l, ∀ c ∈ b64encode l, c.toNat < 128 := by
    intro l c hc
    exact of_decide_eq_true (List.all_eq_true.mp (b64encode_ascii l) c hc)
  unfold sortedUnits Python.sortedPair
  simp only [String.toList_ofList, flatMap_codeUnits (hascii _), map_toNat_lt_iff,
    String.lt_iff_toList_lt]

/-! ## Twelve groups -/

section

variable {h : List UInt8} {fuel i rounds : ℕ} {groups : List String}

theorem window16_lt (h : List UInt8) (byteIdx : ℕ) : window16 h byteIdx < 2 ^ 16 := by
  have hhigh := (h.getD byteIdx 0).toNat_lt
  have hlow := (h.getD (byteIdx + 1) 0).toNat_lt
  apply Nat.or_lt_two_pow
  · rw [Nat.shiftLeft_eq]
    omega
  · omega

theorem windows16_lt (h : List UInt8) : ∀ v ∈ windows16 h, v < 10 ^ 5 := by
  intro v hv
  obtain ⟨i, -, rfl⟩ := List.mem_map.mp hv
  exact (window16_lt h (i * 5 / 2)).trans (by decide)

/-- No index of a group is past the end of a hash. -/
theorem groupLoop_eq (hlength : h.length = 32) (hgroups : groups.length = i)
    (hi : i + rounds = 12) (hfuel : rounds < fuel) :
    groupLoop h fuel i groups =
      groups ++ (List.range' i rounds).map fun i => zfill 5 (window16 h (i * 5 / 2) % 100000) := by
  induction rounds generalizing fuel i groups with
  | zero =>
    obtain ⟨fuel, rfl⟩ : ∃ k, fuel = k + 1 := ⟨fuel - 1, by omega⟩
    rw [groupLoop, if_neg (by omega), List.range'_zero, List.map_nil, List.append_nil]
  | succ rounds ih =>
    obtain ⟨fuel, rfl⟩ : ∃ k, fuel = k + 1 := ⟨fuel - 1, by omega⟩
    rw [groupLoop, if_pos (by omega)]
    dsimp only
    have hlonger : ∀ g, (groups ++ [g]).length = i + 1 := by
      intro g
      rw [List.length_append, hgroups, List.length_singleton]
    have hnext : i + 1 + rounds = 12 := by omega
    have hfuel : rounds < fuel := by omega
    rw [if_neg (by omega), ih (hlonger _) hnext hfuel, List.range'_succ, List.map_cons,
      List.append_assoc, List.singleton_append]

theorem groupLoop_hash (hash : Bytes 32) :
    groupLoop hash.1 13 0 [] = (windows16 hash.1).map (zfill 5) := by
  have hloop := @groupLoop_eq hash.1 13 0 12 [] hash.2 rfl rfl (by omega)
  rw [hloop, windows16, List.nil_append, List.map_map, List.range_eq_range']
  apply List.map_congr_left
  intro i _
  -- 16 bits are below the modulus
  have hsmall := window16_lt hash.1 (i * 5 / 2)
  show zfill 5 (_ % 100000) = zfill 5 _
  rw [Nat.mod_eq_of_lt (by omega)]

/-- The twelve groups; none of them is above 65535, since the windows are not. -/
theorem computeSafetyNumber_eq_windows (sha256 : List UInt8 → Bytes 32) {key key' : String}
    (hsorted : sortedUnits key key' = Python.sortedPair key key') :
    computeSafetyNumber sha256 key key' =
      " ".intercalate ((windows16 (sha256 (safetyData key key')).1).map (zfill 5)) := by
  unfold computeSafetyNumber
  dsimp only
  rw [hsorted, groupLoop_hash]
  rfl

end

/-! ## Where the clients agree -/

/-- Both show one number exactly if the 16-bit windows of the hash of the keys are
the 32-bit windows that Python samples, modulo 100000. -/
theorem eq_python_iff (L : Library) (raw raw' : List UInt8) :
    let key := String.ofList (b64encode raw)
    let key' := String.ofList (b64encode raw')
    computeSafetyNumber L.sha256 key key' = Python.computeSafetyNumber L key key' ↔
      windows16 (L.sha256 (safetyData key key')).1 =
        (sampledWindows L (safetyData key key')).map (· % modulus) := by
  intro key key'
  have hkotlin := computeSafetyNumber_eq_windows L.sha256 (sortedUnits_eq raw raw')
  have hpython : (sampledWindows L (safetyData key key')).map groupOf =
      ((sampledWindows L (safetyData key key')).map (· % modulus)).map (zfill 5) := by
    rw [List.map_map]
    rfl
  rw [hkotlin, Python.computeSafetyNumber_eq, hpython]
  constructor
  · intro heq
    -- five digits to a group, so the groups are equal one by one, and so are the numbers
    have hfive : ∀ l : List ℕ, (∀ v ∈ l, v < 10 ^ 5) → ∀ g ∈ l.map (zfill 5),
        g.toList.length = 5 := by
      intro l hl g hg
      obtain ⟨v, hv, rfl⟩ := List.mem_map.mp hg
      exact length_zfill (by decide) (hl v hv)
    have hlength : (windows16 (L.sha256 (safetyData key key')).1).length =
        ((sampledWindows L (safetyData key key')).map (· % modulus)).length := by
      rw [List.length_map, Python.length_sampledWindows, windows16, List.length_map,
        List.length_range]
    have hmap := intercalate_inj (hfive _ (windows16_lt _)) (hfive _ ?_)
      (by rw [List.length_map, List.length_map, hlength]) heq
    · exact List.map_injective_iff.mpr (fun _ _ => zfill_inj) hmap
    · intro v hv
      obtain ⟨val, -, rfl⟩ := List.mem_map.mp hv
      exact Nat.mod_lt val (by decide)
  · intro hwindows
    rw [hwindows]

/-- A hash that gives the bytes 0 to 31, whatever it is given. -/
def countingLibrary : Library where
  int _ := .ok 0
  sha256 _ := ⟨(List.range 32).map UInt8.ofNat, rfl⟩
  boxEncrypt _ _ _ _ := .ok []
  boxDecrypt _ _ _ := .ok []
  aesgcmEncrypt _ _ _ _ := .ok []
  aesgcmDecrypt _ _ _ _ := .ok []

/-- Keys of 32 bytes: Python begins with 66051, the word of the bytes 0, 1, 2, 3, and
the Android client with 1, that of the bytes 0 and 1. -/
theorem differs_from_python :
    let key := String.ofList (b64encode (List.replicate 32 0))
    let key' := String.ofList (b64encode (List.replicate 32 1))
    computeSafetyNumber countingLibrary.sha256 key key' ≠
      Python.computeSafetyNumber countingLibrary key key' := by
  decide +kernel

end AnonyMus.Android
