import Mathlib.Data.Set.Function

/-!
# Hash chains

Each value of a chain is the hash of an encoding of its place, the value before it and one new
item. The items stand with the newest first.

* `value` — the value after the items;
* `inputs` — what is hashed on the way;
* `items_eq_of_value_eq` — where the hash is injective on what is hashed, chains of one length with
  one value have the same items.
-/

namespace HashChain

variable {σ π ι : Type}

section

variable (hash : ι → σ) (encode : ℕ → σ → π → ι) (start : σ)

def value : List π → σ
  | [] => start
  | p :: ps => hash (encode (ps.length + 1) (value ps) p)

def inputs : List π → Set ι
  | [] => ∅
  | p :: ps => insert (encode (ps.length + 1) (value hash encode start ps) p) (inputs ps)

end

variable {hash : ι → σ} {encode : ℕ → σ → π → ι} {start : σ} {ps qs : List π}

/-- Both chains are unwound from their last items. -/
theorem items_eq_of_value_eq
    (hencode : ∀ n s p s' p', encode n s p = encode n s' p' → s = s' ∧ p = p')
    (hinj : Set.InjOn hash (inputs hash encode start ps ∪ inputs hash encode start qs))
    (hlength : ps.length = qs.length)
    (hvalue : value hash encode start ps = value hash encode start qs) : ps = qs := by
  induction ps generalizing qs with
  | nil => exact (List.length_eq_zero_iff.mp hlength.symm).symm
  | cons p ps ih =>
    rcases qs with _ | ⟨q, qs⟩
    · exact absurd hlength (by simp)
    · have hrest : ps.length = qs.length := Nat.succ_inj.mp hlength
      -- the hash tells the last value before and the last item
      have hinput := hinj (.inl (.inl rfl)) (.inr (.inl rfl)) hvalue
      rw [hrest] at hinput
      obtain ⟨hbefore, rfl⟩ := hencode _ _ _ _ _ hinput
      have hsub : inputs hash encode start ps ∪ inputs hash encode start qs ⊆
          inputs hash encode start (p :: ps) ∪ inputs hash encode start (p :: qs) :=
        Set.union_subset_union (Set.subset_insert _ _) (Set.subset_insert _ _)
      rw [ih (hinj.mono hsub) hrest hbefore]

end HashChain
