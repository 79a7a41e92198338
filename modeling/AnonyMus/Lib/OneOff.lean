import Mathlib.Data.Bool.Basic
import Mathlib.Data.List.Basic

/-!
# Lists that differ in one place

A list of which one element at most is changed or gone, and how a map or a filter comes
to do no more than that.

* `OneOff` — the relation;
* `oneOff_map_iff` — a map that changes one element at most;
* `oneOff_filter_iff` — a filter that drops one element at most.
-/

variable {α : Type} {l l' : List α}

/-- `l'` is `l`, but for one element at most that is changed or gone. -/
def OneOff (l l' : List α) : Prop :=
  ∃ l₁ old new l₂ : List α, l = l₁ ++ (old ++ l₂) ∧ l' = l₁ ++ (new ++ l₂) ∧
    old.length ≤ 1 ∧ new.length ≤ old.length

namespace OneOff

theorem refl (l : List α) : OneOff l l := ⟨[], [], [], l, rfl, rfl, Nat.zero_le 1, Nat.le_refl 0⟩

theorem head (x y : α) (l : List α) : OneOff (x :: l) (y :: l) :=
  ⟨[], [x], [y], l, rfl, rfl, Nat.le_refl 1, Nat.le_refl 1⟩

theorem gone (x : α) (l : List α) : OneOff (x :: l) l :=
  ⟨[], [x], [], l, rfl, rfl, Nat.le_refl 1, Nat.zero_le 1⟩

theorem cons (x : α) (h : OneOff l l') : OneOff (x :: l) (x :: l') := by
  obtain ⟨l₁, old, new, l₂, rfl, rfl, hold, hnew⟩ := h
  exact ⟨x :: l₁, old, new, l₂, rfl, rfl, hold, hnew⟩

theorem length_le (h : OneOff l l') : l.length ≤ l'.length + 1 := by
  obtain ⟨l₁, old, new, l₂, rfl, rfl, hold, -⟩ := h
  simp only [List.length_append]
  omega

end OneOff

section

variable {p : α → Bool}

theorem map_eq_self {g : α → α} (hg : ∀ x, p x = false → g x = x) (hnone : l.countP p = 0) :
    l.map g = l := by
  rw [List.countP_eq_zero] at hnone
  calc l.map g = l.map id := List.map_congr_left fun x hx =>
        hg x (Bool.eq_false_of_not_eq_true (hnone x hx))
    _ = l := List.map_id l

/-- A map that changes the elements of `p` changes one at most exactly if there is one at most. -/
theorem oneOff_map_iff {g : α → α} (hg : ∀ x, p x = false ↔ g x = x) :
    OneOff l (l.map g) ↔ l.countP p ≤ 1 := by
  constructor
  · rintro ⟨l₁, old, new, l₂, rfl, hmap, hold, hnew⟩
    rw [List.map_append, List.map_append] at hmap
    -- part by part, as no part has got longer
    obtain ⟨hfirst, hrest⟩ := List.append_inj hmap (List.length_map g)
    have hlength := congrArg List.length hrest
    simp only [List.length_append, List.length_map] at hlength
    obtain ⟨-, hlast⟩ := List.append_inj hrest (by rw [List.length_map]; omega)
    have hsame : ∀ part : List α, part.map g = part → part.countP p = 0 := by
      intro part hpart
      rw [List.countP_eq_zero]
      intro x hx hpx
      have hfixed := List.map_eq_map_iff.mp (hpart.trans (List.map_id part).symm) x hx
      rw [(hg x).mpr hfixed] at hpx
      cases hpx
    have hcount := @List.countP_le_length _ p old
    rw [List.countP_append, List.countP_append, hsame l₁ hfirst, hsame l₂ hlast]
    omega
  · intro hcount
    induction l with
    | nil => exact .refl []
    | cons x l ih =>
      rw [List.countP_cons] at hcount
      rw [List.map_cons]
      cases hpx : p x with
      | true =>
        rw [if_pos hpx] at hcount
        rw [map_eq_self (fun x => (hg x).mp) (by omega)]
        exact .head x (g x) l
      | false =>
        rw [(hg x).mp hpx]
        exact (ih (by omega)).cons x

/-- A filter drops one element at most exactly if there is one at most to drop. -/
theorem oneOff_filter_iff : OneOff l (l.filter fun x => !p x) ↔ l.countP p ≤ 1 := by
  constructor
  · intro h
    have hlength := h.length_le
    have hsplit := List.length_eq_countP_add_countP p (l := l)
    have hnot : (fun a => decide (¬ p a = true)) = fun a => !p a := by
      funext a
      cases p a <;> rfl
    rw [← List.countP_eq_length_filter] at hlength
    rw [hnot] at hsplit
    omega
  · intro hcount
    induction l with
    | nil => exact .refl []
    | cons x l ih =>
      rw [List.countP_cons] at hcount
      cases hpx : p x with
      | true =>
        rw [if_pos hpx] at hcount
        have hkept : l.filter (fun x => !p x) = l := by
          rw [List.filter_eq_self]
          intro y hy
          have hnone := List.countP_eq_zero.mp (show l.countP p = 0 by omega) y hy
          simpa using hnone
        rw [List.filter_cons_of_neg (by simp [hpx]), hkept]
        exact .gone x l
      | false =>
        rw [List.filter_cons_of_pos (by simp [hpx])]
        exact (ih (by omega)).cons x

end
