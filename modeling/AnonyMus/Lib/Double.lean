import AnonyMus.Lib.Binary64
import Mathlib.Algebra.Order.Field.Rat
import Mathlib.Tactic.Linarith

/-!
# Doubles that are not negative

Such a double is a whole number of units of `2 ^ -1074`, and one that `round64` keeps. A sum or a
difference is the double nearest to the exact one; a difference below zero is zero. There is no
greatest double, so that nothing overflows.

* `Double` — the numbers, with their order and their arithmetic;
* `add_mono`, `sub_mono` — rounding keeps the order;
* `sub_le_of_toRat`, `lt_toRat_add` — rounded results and exact ones.
-/

open Binary64

/-- A double that is not negative, in units of `2 ^ -1074`. -/
def Double : Type := { units : ℕ // round64 units = units }

namespace Double

/-- Kept closed, so that nothing computes the power. -/
@[irreducible] def leastUnit : ℕ := 1074

def units (a : Double) : ℕ := a.1

/-- The double nearest to a number of units. -/
def nearest (n : ℕ) : Double := ⟨round64 n, round64_round64 n⟩

/-- `m * 2 ^ (k - 1074)`. -/
def scaled (m k : ℕ) : Double := nearest (m * 2 ^ k)

instance : LinearOrder Double := inferInstanceAs (LinearOrder { units : ℕ // round64 units = units })

instance (n : ℕ) : OfNat Double n := ⟨scaled n leastUnit⟩

instance : Add Double := ⟨fun a b => nearest (a.units + b.units)⟩

instance : Sub Double := ⟨fun a b => nearest (a.units - b.units)⟩

/-- The exact value. -/
def toRat (a : Double) : ℚ := a.units / 2 ^ leastUnit

variable {a b c d : Double}

theorem units_le : a.units ≤ b.units ↔ a ≤ b := Iff.rfl

theorem nearest_mono : Monotone nearest := fun _ _ h => round64_mono h

theorem nearest_units (a : Double) : nearest a.units = a := Subtype.ext a.2

theorem units_ofNat {n : ℕ} (h : n ≤ 2 ^ 53) : (OfNat.ofNat n : Double).units = n * 2 ^ leastUnit :=
  round64_mul_pow h leastUnit

theorem zero_le (a : Double) : 0 ≤ a := by
  rw [← units_le, units_ofNat (Nat.zero_le _), Nat.zero_mul]
  exact Nat.zero_le _

theorem add_mono (h : a ≤ b) (c : Double) : a + c ≤ b + c :=
  nearest_mono (Nat.add_le_add_right h _)

theorem add_le_add_left (h : a ≤ b) (c : Double) : c + a ≤ c + b :=
  nearest_mono (Nat.add_le_add_left h _)

theorem le_add (a c : Double) : c ≤ a + c := by
  rw [← nearest_units c]
  refine nearest_mono ?_
  rw [nearest_units]
  exact Nat.le_add_left _ _

theorem sub_mono (hab : a ≤ b) (hcd : d ≤ c) : a - c ≤ b - d :=
  nearest_mono (Nat.sub_le_sub_right hab _ |>.trans (Nat.sub_le_sub_left hcd _))

theorem sub_self (a : Double) : a - a = 0 := by
  show nearest (a.units - a.units) = nearest (0 * 2 ^ leastUnit)
  rw [Nat.sub_self, Nat.zero_mul]

/-! ## Exact values -/

theorem toRat_le : a.toRat ≤ b.toRat ↔ a ≤ b := by
  unfold toRat
  rw [div_le_div_iff_of_pos_right (by positivity), Nat.cast_le, units_le]

theorem toRat_mono : Monotone toRat := fun _ _ h => toRat_le.mpr h

theorem toRat_ofNat {n : ℕ} (h : n ≤ 2 ^ 53) : (OfNat.ofNat n : Double).toRat = n := by
  unfold toRat
  rw [units_ofNat h, Nat.cast_mul, Nat.cast_pow, Nat.cast_ofNat,
    mul_div_cancel_right₀ _ (by positivity)]

/-- A difference that is exactly at most a double is so when it is rounded, too. -/
theorem sub_le_of_toRat (h : a.toRat ≤ b.toRat + c.toRat) : a - b ≤ c := by
  unfold toRat at h
  rw [← add_div, div_le_div_iff_of_pos_right (by positivity)] at h
  have hunits : a.units ≤ b.units + c.units := by exact_mod_cast h
  rw [← nearest_units c]
  exact nearest_mono (Nat.sub_le_iff_le_add'.mpr hunits)

/-- A rounded sum is less than one below the exact one, as long as that is of moderate size. -/
theorem lt_toRat_add {n : ℕ} (h : a.toRat + n < 2 ^ 53) :
    a.toRat + n < (a + OfNat.ofNat n).toRat + 1 := by
  have hpos : (0 : ℚ) < 2 ^ leastUnit := by positivity
  -- a whole number is between them, and is kept
  let m := a.units / 2 ^ leastUnit
  have hfloor : (m : ℚ) ≤ a.toRat := by
    rw [toRat, le_div_iff₀ hpos]
    exact_mod_cast Nat.div_mul_le_self _ _
  have hceil : a.toRat < m + 1 := by
    rw [toRat, div_lt_iff₀ hpos]
    exact_mod_cast (Nat.div_lt_iff_lt_mul (Nat.two_pow_pos _)).mp (Nat.lt_succ_self _)
  have hsmall : m + n ≤ 2 ^ 53 := by
    have hlt : ((m + n : ℕ) : ℚ) < (2 ^ 53 : ℕ) := by
      push_cast
      linarith
    exact (Nat.cast_lt.mp hlt).le
  have hwhole : ((m + n : ℕ) : ℚ) ≤ (a + OfNat.ofNat n).toRat := by
    rw [← toRat_ofNat hsmall]
    refine toRat_mono (nearest_mono ?_)
    rw [units_ofNat ((Nat.le_add_left n m).trans hsmall), Nat.add_mul]
    exact Nat.add_le_add_right (Nat.div_mul_le_self _ _) _
  push_cast at hwhole
  linarith

end Double
