import Mathlib.Data.List.Basic

/-!
# Two values in order, and one after the other

Where two values are hashed together whoever comes first, they are put in order; where they are
lists, what is hashed is the one followed by the other, and a piece between them may belong to
either.

* `ordered_comm`, `ordered_eq_iff` — the order forgets who came first, and nothing else;
* `Resplit` — a piece that is not empty has moved from one list to the other;
* `append_eq_iff` — two pairs have one concatenation exactly if they are equal or resplit.
-/

variable {α : Type}

section

variable [LT α] [DecidableLT α]

def ordered (a b : α) : α × α := if a < b then (a, b) else (b, a)

theorem ordered_cases (a b : α) : ordered a b = (a, b) ∨ ordered a b = (b, a) := by
  unfold ordered
  split_ifs with hab
  · exact .inl rfl
  · exact .inr rfl

variable [Std.Asymm (α := α) (· < ·)] [Std.Trichotomous (α := α) (· < ·)] {a b c d : α}

theorem ordered_comm (a b : α) : ordered a b = ordered b a := by
  unfold ordered
  by_cases hab : a < b
  · have hba : ¬ b < a := Std.Asymm.asymm _ _ hab
    rw [if_pos hab, if_neg hba]
  · by_cases hba : b < a
    · rw [if_neg hab, if_pos hba]
    · -- neither comes first: they are the same
      rw [Std.Trichotomous.trichotomous a b hab hba]

theorem ordered_eq_iff :
    ordered a b = ordered c d ↔ (a = c ∧ b = d) ∨ (a = d ∧ b = c) := by
  constructor
  · intro heq
    rcases ordered_cases a b with hab | hab <;> rcases ordered_cases c d with hcd | hcd <;>
      rw [hab, hcd, Prod.mk.injEq] at heq
    · exact .inl heq
    · exact .inr heq
    · exact .inr heq.symm
    · exact .inl heq.symm
  · rintro (⟨rfl, rfl⟩ | ⟨rfl, rfl⟩)
    · rfl
    · exact ordered_comm a b

end

/-- A piece has gone from the second list to the first, or the other way. -/
def Resplit (p q : List α × List α) : Prop :=
  ∃ w, w ≠ [] ∧ ((q.1 = p.1 ++ w ∧ p.2 = w ++ q.2) ∨ (p.1 = q.1 ++ w ∧ q.2 = w ++ p.2))

variable {p q : List α × List α}

/-- Pieces move only between lists of other lengths. -/
theorem Resplit.length_ne (h : Resplit p q) : p.1.length ≠ q.1.length := by
  obtain ⟨w, hne, ⟨hfirst, -⟩ | ⟨hfirst, -⟩⟩ := h <;>
  · have hpos := List.length_pos_of_ne_nil hne
    have hlength := congrArg List.length hfirst
    rw [List.length_append] at hlength
    omega

theorem Resplit.ne (h : Resplit p q) : p ≠ q := by
  rintro rfl
  exact h.length_ne rfl

theorem append_eq_iff : p.1 ++ p.2 = q.1 ++ q.2 ↔ p = q ∨ Resplit p q := by
  constructor
  · intro heq
    rcases List.append_eq_append_iff.mp heq with ⟨w, hq, hp⟩ | ⟨w, hp, hq⟩
    · rcases eq_or_ne w [] with rfl | hne
      · exact .inl (Prod.ext (by rw [hq, List.append_nil]) hp)
      · exact .inr ⟨w, hne, .inl ⟨hq, hp⟩⟩
    · rcases eq_or_ne w [] with rfl | hne
      · exact .inl (Prod.ext (by rw [hp, List.append_nil]) hq.symm)
      · exact .inr ⟨w, hne, .inr ⟨hp, hq⟩⟩
  · rintro (rfl | ⟨w, -, ⟨hq, hp⟩ | ⟨hp, hq⟩⟩)
    · rfl
    · rw [hp, hq, List.append_assoc]
    · rw [hp, hq, List.append_assoc]
