import Mathlib.Algebra.Order.Group.Nat
import Mathlib.Tactic.Linarith
import Mathlib.Tactic.Ring

/-!
# Whole numbers as doubles

A natural number rounded to the nearest binary64 number, ties to even: 53
significant bits are kept. Numbers up to `2 ^ 53` are exact, and no greater one
is rounded below that bound.

* `round64_mono` — rounding keeps the order;
* `round64_mul_pow`, `round64_round64` — what is kept, and that results are;
* `round64_of_le`, `le_round64` — exactness up to the bound, and nothing is rounded below it.
-/

namespace Binary64

/-- The exponent of the unit in the last place. -/
def ulp (n : ℕ) : ℕ := n.log2 - 52

/-- The nearest double, ties to even. -/
def round64 (n : ℕ) : ℕ :=
  let unit := 2 ^ ulp n
  let kept := n / unit
  let rest := n % unit
  if unit < 2 * rest ∨ unit = 2 * rest ∧ kept % 2 = 1 then (kept + 1) * unit else kept * unit

/-! ## Rounding keeps the order -/

theorem lt_mul_ulp (n : ℕ) : n < 2 ^ 53 * 2 ^ ulp n := by
  rw [← Nat.pow_add]
  refine Nat.lt_log2_self.trans_le (Nat.pow_le_pow_right Nat.two_pos ?_)
  unfold ulp
  omega

theorem mul_ulp_le {n : ℕ} (h : ulp n ≠ 0) : 2 ^ 52 * 2 ^ ulp n ≤ n := by
  have hn : n ≠ 0 := by
    rintro rfl
    exact h rfl
  rw [← Nat.pow_add]
  refine (Nat.pow_le_pow_right Nat.two_pos ?_).trans (Nat.log2_self_le hn)
  unfold ulp at h ⊢
  omega

/-- A multiple of the unit that is not below is not passed. -/
theorem round64_le {n m : ℕ} (h : n ≤ m * 2 ^ ulp n) : round64 n ≤ m * 2 ^ ulp n := by
  have hsplit := Nat.div_add_mod' n (2 ^ ulp n)
  unfold round64
  dsimp only
  split_ifs with hup
  · have hlt : n / 2 ^ ulp n * 2 ^ ulp n < m * 2 ^ ulp n := by
      have hpos : 0 < 2 ^ ulp n := Nat.two_pow_pos _
      omega
    exact Nat.mul_le_mul_right _ (lt_of_mul_lt_mul_right hlt (Nat.zero_le _))
  · omega

/-- Nor is one that is not above. -/
theorem le_round64_of_mul {n m : ℕ} (h : m * 2 ^ ulp n ≤ n) : m * 2 ^ ulp n ≤ round64 n := by
  have hle : m * 2 ^ ulp n ≤ n / 2 ^ ulp n * 2 ^ ulp n :=
    Nat.mul_le_mul_right _ ((Nat.le_div_iff_mul_le (Nat.two_pow_pos _)).mpr h)
  unfold round64
  dsimp only
  split_ifs
  · exact hle.trans (Nat.mul_le_mul_right _ (Nat.le_succ _))
  · exact hle

theorem round64_mono : Monotone round64 := by
  intro a b hab
  have hulp : ulp a ≤ ulp b := by
    have hlog : a.log2 ≤ b.log2 := by
      by_cases ha : a = 0
      · rw [ha]
        exact Nat.zero_le _
      · exact (Nat.le_log2 (by omega)).mpr ((Nat.log2_self_le ha).trans hab)
    unfold ulp
    omega
  rcases Nat.lt_or_eq_of_le hulp with hlt | heq
  · -- a power of two lies between them
    calc round64 a ≤ 2 ^ 53 * 2 ^ ulp a := round64_le (lt_mul_ulp a).le
      _ = 2 ^ 52 * 2 ^ (ulp a + 1) := by ring
      _ ≤ 2 ^ 52 * 2 ^ ulp b := Nat.mul_le_mul_left _ (Nat.pow_le_pow_right Nat.two_pos hlt)
      _ ≤ round64 b := le_round64_of_mul (mul_ulp_le (by omega))
  · have hquot : a / 2 ^ ulp a ≤ b / 2 ^ ulp b := by
      rw [heq]
      exact Nat.div_le_div_right hab
    rcases Nat.lt_or_eq_of_le hquot with hlt | hsame
    · calc round64 a ≤ (a / 2 ^ ulp a + 1) * 2 ^ ulp a :=
          round64_le ((Nat.div_lt_iff_lt_mul (Nat.two_pow_pos _)).mp (Nat.lt_succ_self _)).le
        _ ≤ b / 2 ^ ulp b * 2 ^ ulp b := by
          rw [heq] at hlt ⊢
          exact Nat.mul_le_mul_right _ hlt
        _ ≤ round64 b := le_round64_of_mul (Nat.div_mul_le_self _ _)
    · have hrest : a % 2 ^ ulp a ≤ b % 2 ^ ulp b := by
        have ha := Nat.div_add_mod' a (2 ^ ulp a)
        have hb := Nat.div_add_mod' b (2 ^ ulp b)
        rw [hsame, heq] at ha
        rw [heq]
        omega
      unfold round64
      dsimp only
      rw [hsame, heq]
      rw [heq] at hrest
      split_ifs
      · exact le_rfl
      · omega
      · exact Nat.mul_le_mul_right _ (Nat.le_succ _)
      · exact le_rfl

/-! ## What is kept -/

theorem round64_of_dvd {n : ℕ} (h : 2 ^ ulp n ∣ n) : round64 n = n := by
  obtain ⟨m, hm⟩ := h
  rw [Nat.mul_comm] at hm
  refine Nat.le_antisymm ?_ ?_
  · exact (round64_le hm.le).trans hm.ge
  · exact hm.le.trans (le_round64_of_mul hm.ge)

/-- Numbers of 53 bits are kept, however many zeros follow. -/
theorem round64_mul_pow {m : ℕ} (h : m ≤ 2 ^ 53) (k : ℕ) : round64 (m * 2 ^ k) = m * 2 ^ k := by
  have hshort : ∀ m k, m < 2 ^ 53 → round64 (m * 2 ^ k) = m * 2 ^ k := by
    intro m k hm
    apply round64_of_dvd
    refine Dvd.dvd.mul_left (Nat.pow_dvd_pow 2 ?_) m
    by_cases hzero : m * 2 ^ k = 0
    · rw [hzero]
      exact Nat.zero_le _
    · have hlog : (m * 2 ^ k).log2 < 53 + k := by
        rw [Nat.log2_lt hzero, Nat.pow_add]
        exact Nat.mul_lt_mul_of_pos_right hm (Nat.two_pow_pos k)
      unfold ulp
      omega
  rcases Nat.lt_or_eq_of_le h with hlt | rfl
  · exact hshort m k hlt
  · have hone := hshort 1 (53 + k) (by norm_num)
    rwa [Nat.one_mul, Nat.pow_add] at hone

theorem round64_round64 (n : ℕ) : round64 (round64 n) = round64 n := by
  have hkept : n / 2 ^ ulp n < 2 ^ 53 := (Nat.div_lt_iff_lt_mul (Nat.two_pow_pos _)).mpr (lt_mul_ulp n)
  have hround : ∃ m ≤ 2 ^ 53, round64 n = m * 2 ^ ulp n := by
    unfold round64
    dsimp only
    split_ifs
    · exact ⟨_, hkept, rfl⟩
    · exact ⟨_, hkept.le, rfl⟩
  obtain ⟨m, hm, hround⟩ := hround
  rw [hround, round64_mul_pow hm]

/-! ## Whole numbers -/

theorem round64_of_le {n : ℕ} (h : n ≤ 2 ^ 53) : round64 n = n := by
  have hkept := round64_mul_pow h 0
  rwa [Nat.pow_zero, Nat.mul_one] at hkept

theorem le_round64 {n : ℕ} (h : 2 ^ 53 ≤ n) : 2 ^ 53 ≤ round64 n := by
  have hle := round64_mono h
  rwa [round64_of_le le_rfl] at hle

/-- Above the bound not every number is a double. -/
example : round64 (2 ^ 53 + 1) = 2 ^ 53 := by decide

end Binary64
