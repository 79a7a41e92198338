import Mathlib.Algebra.BigOperators.Group.List.Basic
import Mathlib.Algebra.Order.Ring.Int

/-!
# Eviction, the oldest first

What has a size is removed until the rest fits. Not everything can be removed: what cannot is passed
over, and still counts.

* `evict` — what is removed, from a list that stands in the order of age;
* `evict_isPrefix` — a beginning of what can be removed;
* `limit_lt_of_evict`, `fits_or_all` — it is removed as long as the rest does not fit, and no longer;
* `older_mem` — nothing is removed before what is older and can be removed.
-/

namespace Eviction

variable {α : Type}

section

variable (limit : ℤ) (size : α → ℤ) (ok : α → Bool)

/-- `total` is the size of what is left. -/
def evict : List α → ℤ → List α
  | [], _ => []
  | x :: xs, total =>
    if total ≤ limit then []
    else if ok x then x :: evict xs (total - size x)
    else evict xs total

end

variable {limit : ℤ} {size : α → ℤ} {ok : α → Bool} {xs before after : List α} {x y : α} {total : ℤ}

/-- What fits stays as it is. -/
theorem evict_of_fits (h : total ≤ limit) : evict limit size ok xs total = [] := by
  cases xs with
  | nil => rfl
  | cons x xs => rw [evict, if_pos h]

theorem evict_isPrefix : evict limit size ok xs total <+: xs.filter ok := by
  induction xs generalizing total with
  | nil => exact List.prefix_rfl
  | cons x xs ih =>
    rw [evict]
    split_ifs with hfits hok
    · exact List.nil_prefix
    · rw [List.filter_cons_of_pos hok]
      exact (List.prefix_cons_inj x).mpr ih
    · rw [List.filter_cons_of_neg hok]
      exact ih

/-- Nothing is removed from what fits. -/
theorem limit_lt_of_evict (h : evict limit size ok xs total = before ++ x :: after) :
    limit < total - (before.map size).sum := by
  induction xs generalizing total before with
  | nil =>
    rw [evict] at h
    exact absurd h.symm (by simp)
  | cons y ys ih =>
    rw [evict] at h
    split_ifs at h with hfits hok
    · exact absurd h.symm (by simp)
    · rcases before with _ | ⟨z, before⟩
      · -- it is the first
        simpa using hfits
      · rw [List.cons_append] at h
        obtain ⟨rfl, htail⟩ := List.cons.inj h
        have hrest := ih htail
        rw [List.map_cons, List.sum_cons]
        omega
    · exact ih h

/-- The rest fits, unless all that can be removed is removed. -/
theorem fits_or_all : total - ((evict limit size ok xs total).map size).sum ≤ limit ∨
    evict limit size ok xs total = xs.filter ok := by
  induction xs generalizing total with
  | nil => exact .inr rfl
  | cons x xs ih =>
    rw [evict]
    split_ifs with hfits hok
    · exact .inl (by simpa using hfits)
    · rw [List.filter_cons_of_pos hok, List.map_cons, List.sum_cons]
      rcases @ih (total - size x) with hrest | hall
      · exact .inl (by omega)
      · exact .inr (congrArg _ hall)
    · rw [List.filter_cons_of_neg hok]
      exact ih

/-- In the order of age, what is older and can be removed comes before. -/
theorem older_mem {T : Type} [LinearOrder T] {age : α → T} (hsorted : xs.Pairwise (age · ≤ age ·))
    (h : before ++ x :: after <+: xs.filter ok) (hy : y ∈ xs) (hok : ok y = true)
    (hold : age y < age x) : y ∈ before := by
  obtain ⟨rest, hrest⟩ := h
  have hmem : y ∈ before ++ (x :: after ++ rest) := by
    rw [← List.append_assoc, hrest]
    exact List.mem_filter.mpr ⟨hy, hok⟩
  rcases List.mem_append.mp hmem with hbefore | hafter
  · exact hbefore
  · -- what comes from there on is not older
    have hfiltered := hsorted.sublist (List.filter_sublist (p := ok))
    rw [← hrest, List.append_assoc] at hfiltered
    have hlater := (List.pairwise_append.mp hfiltered).2.1
    rw [List.cons_append] at hafter hlater
    rcases List.mem_cons.mp hafter with rfl | hafter
    · exact absurd hold (lt_irrefl _)
    · exact absurd ((List.pairwise_cons.mp hlater).1 y hafter) (not_le.mpr hold)

end Eviction
