import Mathlib.Data.Finset.Card
import AnonyMus.Lib.Dict

/-!
# Dictionaries in the order of use

An insertion-ordered dictionary whose keys stand in the order in which they were last used: a key
moves to the end when it is used, and what is too much goes from the front.

* `trim`, `keys_trim`, `get?_trim` — entries go from the front until few enough are left;
* `moveToEnd`, `keys_moveToEnd`, `get?_moveToEnd` — the order changes, the lookups do not;
* `InOrder` — the keys stand in the order of a stamp;
* `InOrder.trim`, `InOrder.erase`, `InOrder.of_keys_eq` — what keeps it;
* `InOrder.lt_of_trimmed` — what goes has the smallest stamp;
* `mostRecent`, `InOrder.mem_keys_trim` — those that stay are the most recent ones.
-/

namespace Dict

variable {κ ν : Type} {stamp stamp' : κ → ℕ} {d : Dict κ ν} {k : κ} {n : ℕ}

/-! ## From the front -/

/-- `fuel` bounds the rounds of the loop; the size is enough. -/
def trimLoop (n : ℕ) : ℕ → Dict κ ν → Dict κ ν
  | 0, d => d
  | fuel + 1, d => if n < d.size then trimLoop n fuel d.dropOldest else d

/-- Drop the oldest entry while more than `n` are left. -/
def trim (n : ℕ) (d : Dict κ ν) : Dict κ ν := trimLoop n d.size d

theorem entries_trimLoop {fuel : ℕ} (hfuel : d.size ≤ fuel) :
    (trimLoop n fuel d).entries = d.entries.drop (d.size - n) := by
  induction fuel generalizing d with
  | zero => simp [trimLoop, Nat.le_zero.mp hfuel]
  | succ fuel ih =>
    have hsize : d.dropOldest.size = d.size - 1 := List.length_tail
    rw [trimLoop]
    split_ifs with hmore
    · rw [ih (by omega), hsize]
      -- the entry dropped here is the first of those that go
      show d.entries.tail.drop _ = _
      rw [List.drop_tail, show d.size - 1 - n + 1 = d.size - n by omega]
    · rw [show d.size - n = 0 by omega, List.drop_zero]

theorem entries_trim (n : ℕ) (d : Dict κ ν) :
    (d.trim n).entries = d.entries.drop (d.size - n) := entries_trimLoop le_rfl

theorem keys_trim (n : ℕ) (d : Dict κ ν) : (d.trim n).keys = d.keys.drop (d.size - n) := by
  rw [keys, entries_trim, List.map_drop, keys]

theorem size_trim_le (n : ℕ) (d : Dict κ ν) : (d.trim n).size ≤ n := by
  rw [size, entries_trim, List.length_drop, size]
  omega

/-! ## The order of a stamp -/

/-- The keys stand in the order of their stamps. -/
def InOrder (stamp : κ → ℕ) (d : Dict κ ν) : Prop := d.keys.Pairwise (stamp · < stamp ·)

theorem InOrder.congr (h : d.InOrder stamp) (hkeys : ∀ k ∈ d.keys, stamp' k = stamp k) :
    d.InOrder stamp' := by
  refine List.Pairwise.imp_of_mem ?_ h
  intro a b ha hb hab
  rwa [hkeys a ha, hkeys b hb]

theorem InOrder.of_sublist {d' : Dict κ ν} (h : d.InOrder stamp)
    (hsub : d'.keys.Sublist d.keys) : d'.InOrder stamp := List.Pairwise.sublist hsub h

theorem InOrder.trim (h : d.InOrder stamp) : (d.trim n).InOrder stamp := by
  refine h.of_sublist ?_
  rw [keys_trim]
  exact List.drop_sublist _ _

/-- One key too many: the one that goes has the smallest stamp. -/
theorem InOrder.lt_of_trimmed {gone : κ} (h : d.InOrder stamp) (hsize : d.size ≤ n + 1)
    (hgone : gone ∈ d.keys) (hnot : gone ∉ (d.trim n).keys) (hk : k ∈ d.keys) (hne : k ≠ gone) :
    stamp gone < stamp k := by
  rw [keys_trim] at hnot
  rw [InOrder] at h
  -- at most the first entry goes
  have hfew : d.size - n = 0 ∨ d.size - n = 1 := by omega
  rcases hfew with hzero | hone
  · rw [hzero] at hnot
    exact absurd hgone hnot
  · rw [hone] at hnot
    rcases hkeys : d.keys with _ | ⟨first, rest⟩
    · rw [hkeys] at hk
      exact absurd hk List.not_mem_nil
    · rw [hkeys] at hk hgone hnot h
      have hfirst : gone = first := (List.mem_cons.mp hgone).resolve_right hnot
      subst hfirst
      exact (List.pairwise_cons.mp h).1 k ((List.mem_cons.mp hk).resolve_left hne)

/-- Where keys stand in order, those after a key are the ones with a greater stamp. -/
theorem filter_lt_of_split {before after : List κ}
    (h : (before ++ k :: after).Pairwise (stamp · < stamp ·)) :
    (before ++ k :: after).filter (stamp k < stamp ·) = after := by
  obtain ⟨-, hfrom, hcross⟩ := List.pairwise_append.mp h
  have hafter := (List.pairwise_cons.mp hfrom).1
  have hnone : before.filter (stamp k < stamp ·) = [] := by
    rw [List.filter_eq_nil_iff]
    intro a ha
    have := hcross a ha k List.mem_cons_self
    simp only [decide_eq_true_eq]
    omega
  rw [List.filter_append, List.filter_cons_of_neg (by simp), hnone, List.nil_append,
    List.filter_eq_self]
  exact fun a ha => decide_eq_true (hafter a ha)

/-- What is left of the keys when all but the last `n` go. -/
theorem mem_drop_iff {ks : List κ} (h : ks.Pairwise (stamp · < stamp ·)) :
    k ∈ ks.drop (ks.length - n) ↔ k ∈ ks ∧ (ks.filter (stamp k < stamp ·)).length < n := by
  constructor
  · intro hmem
    refine ⟨List.mem_of_mem_drop hmem, ?_⟩
    obtain ⟨before, after, hsplit⟩ := List.append_of_mem hmem
    have hall : ks = (ks.take (ks.length - n) ++ before) ++ k :: after := by
      rw [List.append_assoc, ← hsplit, List.take_append_drop]
    -- all that comes after `k` is left, so it is fewer than `n`
    have hlength := congrArg List.length hsplit
    rw [List.length_drop, List.length_append, List.length_cons] at hlength
    rw [hall] at h
    rw [hall, filter_lt_of_split h]
    omega
  · rintro ⟨hmem, hfew⟩
    obtain ⟨before, after, rfl⟩ := List.append_of_mem hmem
    rw [filter_lt_of_split h] at hfew
    -- the drop ends before `k`
    rw [List.drop_append_of_le_length (by simp; omega)]
    exact List.mem_append_right _ List.mem_cons_self

variable [DecidableEq κ]

/-! ## The most recent keys -/

theorem get?_trim (h : k ∈ (d.trim n).keys) : (d.trim n).get? k = d.get? k := by
  obtain ⟨⟨k', v⟩, hmem, rfl⟩ := List.mem_map.mp h
  rw [mem_entries_iff.mp hmem]
  rw [entries_trim] at hmem
  exact (mem_entries_iff.mp (List.mem_of_mem_drop hmem)).symm

/-- The keys of a set that fewer than `n` others come after. -/
def mostRecent (stamp : κ → ℕ) (n : ℕ) (s : Finset κ) : Finset κ :=
  s.filter fun k => (s.filter fun k' => stamp k < stamp k').card < n

/-- What stays are the most recent keys. -/
theorem InOrder.mem_keys_trim (h : d.InOrder stamp) :
    k ∈ (d.trim n).keys ↔ k ∈ mostRecent stamp n d.keys.toFinset := by
  have hnodup : (d.keys.filter (stamp k < stamp ·)).Nodup := d.nodup.sublist List.filter_sublist
  have hcard : (d.keys.toFinset.filter (stamp k < stamp ·)).card =
      (d.keys.filter (stamp k < stamp ·)).length := by
    rw [← List.toFinset_card_of_nodup hnodup, List.toFinset_filter]
    simp
  rw [keys_trim, ← length_keys, mem_drop_iff h, mostRecent, Finset.mem_filter, List.mem_toFinset,
    hcard]

/-! ## To the end -/

/-- The entry of a key that is there becomes the last one. -/
def moveToEnd (d : Dict κ ν) (k : κ) : Dict κ ν :=
  match d.get? k with
  | none => d
  | some v => (d.erase k).insert k v

theorem keys_erase (d : Dict κ ν) (k : κ) : (d.erase k).keys = d.keys.filter (· ≠ k) := by
  rw [keys, keys, List.filter_map]
  rfl

theorem keys_moveToEnd (h : k ∈ d.keys) : (d.moveToEnd k).keys = d.keys.filter (· ≠ k) ++ [k] := by
  rw [moveToEnd]
  rcases hk : d.get? k with _ | v
  · exact absurd h (get?_eq_none_iff_notMem_keys.mp hk)
  · show ((d.erase k).insert k v).keys = _
    rw [keys_insert, keys_erase, addKey, if_neg (by simp)]

theorem mem_keys_moveToEnd {k' : κ} : k' ∈ (d.moveToEnd k).keys ↔ k' ∈ d.keys := by
  by_cases h : k ∈ d.keys
  · rw [keys_moveToEnd h, List.mem_append, List.mem_filter, List.mem_singleton]
    by_cases hk : k' = k
    · simp [hk, h]
    · simp [hk]
  · rw [moveToEnd, get?_eq_none_iff_notMem_keys.mpr h]

theorem size_moveToEnd (d : Dict κ ν) (k : κ) : (d.moveToEnd k).size = d.size := by
  by_cases h : k ∈ d.keys
  · -- the keys are the same, in another order
    have hperm : (d.keys.filter (· ≠ k) ++ [k]).Perm d.keys := by
      have herase : d.keys.erase k = d.keys.filter (· ≠ k) := by
        have hnodup : d.keys.Nodup := d.nodup
        rw [hnodup.erase_eq_filter]
        exact List.filter_congr fun k' _ => by rw [Bool.eq_iff_iff]; simp
      rw [← herase]
      exact (List.perm_append_singleton k _).trans (List.perm_cons_erase h).symm
    rw [← length_keys, ← length_keys, keys_moveToEnd h]
    exact hperm.length_eq
  · rw [moveToEnd, get?_eq_none_iff_notMem_keys.mpr h]

@[simp] theorem get?_moveToEnd (d : Dict κ ν) (k k' : κ) :
    (d.moveToEnd k).get? k' = d.get? k' := by
  rw [moveToEnd]
  rcases hk : d.get? k with _ | v
  · rfl
  · show ((d.erase k).insert k v).get? k' = _
    rw [get?_insert, get?_erase]
    by_cases h : k' = k
    · rw [if_pos h, h, hk]
    · rw [if_neg h, if_neg h]

theorem InOrder.erase (h : d.InOrder stamp) : (d.erase k).InOrder stamp := by
  refine h.of_sublist ?_
  rw [keys_erase]
  exact List.filter_sublist

/-- The key stands at the end, with the greatest stamp; the others keep their places and theirs. -/
theorem InOrder.of_keys_eq {d' : Dict κ ν} (h : d.InOrder stamp)
    (hkeys : d'.keys = d.keys.filter (· ≠ k) ++ [k])
    (hothers : ∀ k' ∈ d.keys, k' ≠ k → stamp' k' = stamp k')
    (hlast : ∀ k' ∈ d.keys, k' ≠ k → stamp k' < stamp' k) : d'.InOrder stamp' := by
  rw [InOrder, hkeys, List.pairwise_append]
  refine ⟨?_, List.pairwise_singleton _ _, ?_⟩
  · have hrest : (d.erase k).InOrder stamp' := by
      refine h.erase.congr ?_
      intro k' hk'
      obtain ⟨hmem, hne⟩ := mem_keys_erase.mp hk'
      exact hothers k' hmem hne
    rwa [InOrder, keys_erase] at hrest
  · intro k' hk' last hlastmem
    obtain rfl := List.mem_singleton.mp hlastmem
    obtain ⟨hmem, hne⟩ := List.mem_filter.mp hk'
    have hne : k' ≠ last := of_decide_eq_true hne
    rw [hothers k' hmem hne]
    exact hlast k' hmem hne

/-- A key that was just written is at the end after the move, whether it was there or not. -/
theorem keys_insert_moveToEnd (d : Dict κ ν) (k : κ) (v : ν) :
    ((d.insert k v).moveToEnd k).keys = d.keys.filter (· ≠ k) ++ [k] := by
  rw [keys_moveToEnd (mem_keys_insert.mpr (.inl rfl)), keys_insert, addKey]
  split_ifs with h
  · rfl
  · rw [List.filter_append]
    simp

end Dict
