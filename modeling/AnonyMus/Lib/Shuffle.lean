import Mathlib.Data.List.Basic

/-!
# A list split in two

`Shuffle xs ys zs` — every element of `zs` is in `xs` or in `ys`, both of which
keep the order of `zs`: nothing is lost, nothing appears twice.

* `Shuffle.append` — splits of two parts are a split of the whole;
* `Shuffle.append_left`, `Shuffle.append_right` — the rest goes to one half.
-/

/-- `zs` consists of `xs` and `ys`, each in its order. -/
inductive Shuffle {α : Type} : List α → List α → List α → Prop
  | nil : Shuffle [] [] []
  | left {xs ys zs} (a : α) (h : Shuffle xs ys zs) : Shuffle (a :: xs) ys (a :: zs)
  | right {xs ys zs} (a : α) (h : Shuffle xs ys zs) : Shuffle xs (a :: ys) (a :: zs)

namespace Shuffle

variable {α : Type} {xs xs' ys ys' zs zs' : List α}

theorem all_left (l : List α) : Shuffle l [] l := by
  induction l with
  | nil => exact .nil
  | cons a l ih => exact .left a ih

theorem all_right (l : List α) : Shuffle [] l l := by
  induction l with
  | nil => exact .nil
  | cons a l ih => exact .right a ih

theorem append (h : Shuffle xs ys zs) (h' : Shuffle xs' ys' zs') :
    Shuffle (xs ++ xs') (ys ++ ys') (zs ++ zs') := by
  induction h with
  | nil => exact h'
  | left a _ ih => exact .left a ih
  | right a _ ih => exact .right a ih

theorem append_left (h : Shuffle xs ys zs) (l : List α) : Shuffle (xs ++ l) ys (zs ++ l) := by
  have hall := h.append (all_left l)
  rwa [List.append_nil] at hall

theorem append_right (h : Shuffle xs ys zs) (l : List α) : Shuffle xs (ys ++ l) (zs ++ l) := by
  have hall := h.append (all_right l)
  rwa [List.append_nil] at hall

end Shuffle
