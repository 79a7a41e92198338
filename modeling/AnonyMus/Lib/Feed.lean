import Mathlib.Data.List.Basic
import Mathlib.Order.Basic

/-!
# Feeds

A reader of a value that changes sees some of the values it has had, and ends with the one it has. The
values have ranks that tell which is newer.

* `UpToDate` — the values in the order of their ranks, the last one being the current value;
* `UpToDate.of_current`, `UpToDate.of_twice` — the current value, seen once or twice;
* `UpToDate.rank_le` — no value seen is newer than the current one;
* `UpToDate.push` — a newer value follows.
-/

namespace Feed

variable {α β : Type} [Preorder β] {rank : α → β}

/-- `xs` are values in the order of their ranks, and the last is the current one. -/
structure UpToDate (rank : α → β) (xs : List α) (current : Option α) : Prop where
  ordered : xs.Pairwise (rank · ≤ rank ·)
  last    : xs.getLast? = current

variable {xs ys : List α} {current : Option α} {new : α}

theorem UpToDate.of_current (current : Option α) : UpToDate rank current.toList current := by
  rcases current with _ | c
  · exact ⟨List.Pairwise.nil, rfl⟩
  · exact ⟨List.pairwise_singleton _ _, rfl⟩

/-- Seen as it was found, and once more as news. -/
theorem UpToDate.of_twice (current : Option α) :
    UpToDate rank (current.toList ++ current.toList) current := by
  rcases current with _ | c
  · exact ⟨List.Pairwise.nil, rfl⟩
  · exact ⟨by simp, rfl⟩

/-- No value is newer than the current one. -/
theorem UpToDate.rank_le (h : UpToDate rank xs current) {x : α} (hx : x ∈ xs) :
    ∃ c ∈ current, rank x ≤ rank c := by
  obtain ⟨hordered, rfl⟩ := h
  rcases List.eq_nil_or_concat xs with rfl | ⟨before, last, rfl⟩
  · exact absurd hx List.not_mem_nil
  · rw [List.concat_eq_append] at hx hordered ⊢
    refine ⟨last, List.getLast?_concat, ?_⟩
    rcases List.mem_append.mp hx with hbefore | hlast
    · exact (List.pairwise_append.mp hordered).2.2 x hbefore last List.mem_cons_self
    · exact le_of_eq (congrArg rank (List.mem_singleton.mp hlast))

theorem UpToDate.push (h : UpToDate rank xs current) (hnew : ∀ c ∈ current, rank c ≤ rank new) :
    UpToDate rank (xs ++ [new]) (some new) := by
  refine ⟨?_, List.getLast?_concat⟩
  rw [List.pairwise_append]
  refine ⟨h.ordered, List.pairwise_singleton _ _, ?_⟩
  intro x hx y hy
  obtain rfl := List.mem_singleton.mp hy
  obtain ⟨c, hc, hle⟩ := h.rank_le hx
  exact le_trans hle (hnew c hc)

end Feed
