import AnonyMus.Lib.Simulation

/-!
# Since

What a state remembers of a run, as a condition on its calls: one of them has begun it, and
none since has ended it.

* `Since` — the condition;
* `since_concat` — call by call;
* `after_iff_since` — from what one call does to what a run leaves.
-/

namespace EStateM

variable {ε σ α κ : Type} {act : κ → EStateM ε σ α} {P P' S : κ → σ → Prop} {ks : List κ} {s : σ}

variable (act P S) in
/-- A call has met `P`, and every one since has met `S`. -/
def Since (ks : List κ) (s : σ) : Prop :=
  ∃ early k late, ks = early ++ k :: late ∧ P k (after act early s) ∧
    AllMeet act S late (after act (early ++ [k]) s)

theorem Since.mono (h : Since act P S ks s) (hP : ∀ k t, P k t → P' k t) :
    Since act P' S ks s := by
  obtain ⟨early, k, late, hks, hbegun, hlate⟩ := h
  exact ⟨early, k, late, hks, hP _ _ hbegun, hlate⟩

theorem not_since_nil : ¬ Since act P S [] s := by
  rintro ⟨early, k, late, h, -⟩
  simp at h

theorem since_concat (k : κ) :
    Since act P S (ks ++ [k]) s ↔
      P k (after act ks s) ∨ Since act P S ks s ∧ S k (after act ks s) := by
  constructor
  · rintro ⟨early, k', late, hsplit, hbegun, hlate⟩
    rcases List.eq_nil_or_concat late with rfl | ⟨late, last, rfl⟩
    · obtain ⟨rfl, hlast⟩ := List.append_inj' hsplit rfl
      exact .inl (List.singleton_inj.mp hlast ▸ hbegun)
    · rw [List.concat_eq_append, ← List.cons_append, ← List.append_assoc] at hsplit
      obtain ⟨rfl, hlast⟩ := List.append_inj' hsplit rfl
      obtain rfl := List.singleton_inj.mp hlast
      rw [List.concat_eq_append, allMeet_append, ← after_append] at hlate
      refine .inr ⟨⟨early, k', late, rfl, hbegun, hlate.1⟩, ?_⟩
      simpa using hlate.2.1
  · rintro (hbegun | ⟨⟨early, k', late, rfl, hbegun, hlate⟩, hlast⟩)
    · exact ⟨ks, k, [], rfl, hbegun, trivial⟩
    · refine ⟨early, k', late ++ [k], by simp, hbegun, ?_⟩
      rw [allMeet_append, ← after_append]
      exact ⟨hlate, by simpa using hlast, trivial⟩

/-- A property that a call begins or leaves is what a run has begun and left. -/
theorem after_iff_since {X : σ → Prop} (hstep : ∀ k t, X (act k t).state ↔ P k t ∨ X t ∧ S k t)
    (hs : ¬ X s) (ks : List κ) : X (after act ks s) ↔ Since act P S ks s := by
  induction ks using List.reverseRecOn with
  | nil => exact iff_of_false hs not_since_nil
  | append_singleton ks k ih => rw [after_append, after_cons, after_nil, hstep, ih, since_concat]

end EStateM
