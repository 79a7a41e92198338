import Mathlib.Data.List.Induction
import Mathlib.Data.List.Sort

/-!
# Windows of time

Points in time in the order in which they come, and how many of them fall into a
window of a fixed length. `near w t` tells that a window which begins at `w` has not
ended at `t`, so that windows may be half-open or closed, over any order.

* `within`, `recent` — how many points lie in the window that begins, or ends, somewhere;
* `within_le_iff` — no window has more than `limit` points exactly when every point has
  fewer than `limit` recent ones before it;
* `within_le_iff_apart` — or when points with as many between them are not near;
* `recent_filter`, `recent_dropWhile` — a queue may forget what is not recent.
-/

namespace Window

variable {T : Type} [LinearOrder T] (near : T → T → Prop) [DecidableRel near]

/-- A window that has not ended at a time had not ended before, nor do later windows. -/
def Closing : Prop := ∀ ⦃w w' t t'⦄, w ≤ w' → t' ≤ t → near w t → near w' t'

/-- How many of the points lie in the window that begins at `w`. -/
def within (w : T) (ts : List T) : ℕ := ts.countP fun t => w ≤ t ∧ near w t

/-- How many of the points begin a window that has not ended `now`. -/
def recent (now : T) (ts : List T) : ℕ := ts.countP fun t => near t now

variable {near} {ts us : List T} {t now later : T} {limit : ℕ}

omit [LinearOrder T] in
theorem recent_append : recent near now (ts ++ us) = recent near now ts + recent near now us :=
  List.countP_append

/-- The points of a window are recent at its last point. -/
theorem within_le_recent (hnear : Closing near) {w : T} (hw : near w t) :
    within near w ts ≤ recent near t ts := by
  apply List.countP_mono_left
  intro x hx hwithin
  simp only [decide_eq_true_eq] at hwithin ⊢
  exact hnear hwithin.1 le_rfl hw

/-- The recent points at a time, and a point then, lie in one window. -/
theorem recent_lt_of_within (hnear : Closing near) (hself : near t t)
    (hsorted : (ts ++ [t]).Pairwise (· ≤ ·)) (hall : ∀ w, within near w (ts ++ [t]) ≤ limit) :
    recent near t ts < limit := by
  have hle : ∀ x ∈ ts, x ≤ t := fun x hx =>
    (List.pairwise_append.mp hsorted).2.2 x hx t List.mem_cons_self
  -- the window that begins at the first of them
  obtain ⟨w, hw, hrecent⟩ : ∃ w, (w ≤ t ∧ near w t) ∧ recent near t ts ≤ within near w ts := by
    rcases hfilter : ts.filter fun x => near x t with _ | ⟨w, rest⟩
    · refine ⟨t, ⟨le_rfl, hself⟩, ?_⟩
      rw [recent, List.countP_eq_length_filter, hfilter]
      exact Nat.zero_le _
    · have hmem : w ∈ ts.filter fun x => near x t := hfilter ▸ List.mem_cons_self
      obtain ⟨hwts, hwt⟩ := List.mem_filter.mp hmem
      have hwt : near w t := of_decide_eq_true hwt
      have hfirst : ∀ x ∈ ts.filter fun x => near x t, w ≤ x := by
        have hpairwise := ((List.pairwise_append.mp hsorted).1).sublist
          (List.filter_sublist (p := fun x => decide (near x t)))
        rw [hfilter] at hpairwise ⊢
        intro x hx
        rcases List.mem_cons.mp hx with rfl | hx
        · exact le_rfl
        · exact (List.pairwise_cons.mp hpairwise).1 x hx
      refine ⟨w, ⟨hle w hwts, hwt⟩, ?_⟩
      apply List.countP_mono_left
      intro x hx hxt
      have hwx : w ≤ x := hfirst x (List.mem_filter.mpr ⟨hx, hxt⟩)
      simp only [decide_eq_true_eq]
      exact ⟨hwx, hnear le_rfl (hle x hx) hwt⟩
  have hmax := hall w
  rw [within, List.countP_append, List.countP_singleton, if_pos (by simpa using hw)] at hmax
  exact Nat.lt_of_lt_of_le (Nat.lt_succ_of_le hrecent) hmax

/-- **Windows, point by point.** -/
theorem within_le_iff (hnear : Closing near) (hself : ∀ t, near t t)
    (hsorted : ts.Pairwise (· ≤ ·)) :
    (∀ w, within near w ts ≤ limit) ↔
      ∀ before t rest, ts = before ++ t :: rest → recent near t before < limit := by
  constructor
  · rintro hall before t rest rfl
    rw [List.append_cons] at hsorted hall
    refine recent_lt_of_within hnear (hself t) (List.pairwise_append.mp hsorted).1 fun w => ?_
    exact (Nat.le_add_right _ _).trans (List.countP_append.symm.le.trans (hall w))
  · intro hbefore w
    -- over the points from the last: a window that has it ends there
    induction ts using List.reverseRecOn with
    | nil => exact Nat.zero_le _
    | append_singleton ts t ih =>
      have hrest := ih (List.pairwise_append.mp hsorted).1 fun before x rest h =>
        hbefore before x (rest ++ [t]) (by rw [h, List.append_assoc, List.cons_append])
      rw [within, List.countP_append, List.countP_singleton]
      split_ifs with hin
      · have hrecent : within near w ts ≤ recent near t ts :=
          within_le_recent hnear (of_decide_eq_true hin).2
        exact Nat.lt_of_le_of_lt hrecent (hbefore ts t [] rfl)
      · exact hrest

/-- What is not recent now will not be recent later. -/
theorem recent_filter (hnear : Closing near) (hle : now ≤ later) :
    recent near later (ts.filter fun t => near t now) = recent near later ts := by
  rw [recent, List.countP_filter]
  apply List.countP_congr
  intro t _
  simp only [Bool.and_eq_true, decide_eq_true_eq, and_iff_left_iff_imp]
  exact hnear le_rfl hle

theorem recent_dropWhile (hnear : Closing near) (hle : now ≤ later) :
    recent near later (ts.dropWhile fun t => ¬ near t now) = recent near later ts := by
  induction ts with
  | nil => rfl
  | cons t ts ih =>
    rw [List.dropWhile_cons]
    split_ifs with hold
    · rw [ih, recent, recent, List.countP_cons_of_neg]
      intro hlater
      simp only [decide_eq_true_eq] at hold hlater
      exact hold (hnear le_rfl hle hlater)
    · rfl

/-- In order, what is left at the front of a queue is recent with all that comes after it. -/
theorem dropWhile_eq_filter (hnear : Closing near) (hsorted : ts.Pairwise (· ≤ ·)) :
    (ts.dropWhile fun t => ¬ near t now) = ts.filter fun t => near t now := by
  induction ts with
  | nil => rfl
  | cons t ts ih =>
    obtain ⟨hle, hsorted⟩ := List.pairwise_cons.mp hsorted
    rw [List.dropWhile_cons, List.filter_cons]
    by_cases hold : near t now
    · have hall : (t :: ts).filter (fun t => near t now) = t :: ts := by
        refine List.filter_eq_self.mpr fun x hx => decide_eq_true ?_
        rcases List.mem_cons.mp hx with rfl | hx
        · exact hold
        · exact hnear (hle x hx) le_rfl hold
      rw [List.filter_cons] at hall
      simpa [hold] using hall.symm
    · simpa [hold] using ih hsorted

/-- **Windows, by the points that are far enough apart.** -/
theorem within_le_iff_apart (hnear : Closing near) (hself : ∀ t, near t t)
    (hsorted : ts.Pairwise (· ≤ ·)) :
    (∀ w, within near w ts ≤ limit + 1) ↔
      ∀ early x mid y late, ts = early ++ x :: (mid ++ y :: late) → limit ≤ mid.length →
        ¬ near x y := by
  constructor
  · rintro hall early x mid y late rfl hlong hxy
    -- the window that begins at `x` has all of them
    have hsub : (x :: mid ++ [y]).Sublist (early ++ x :: (mid ++ y :: late)) := by
      refine List.Sublist.trans (List.Sublist.cons_cons x ?_) (List.sublist_append_right early _)
      exact (List.Sublist.refl mid).append (List.sublist_append_left [y] late)
    obtain ⟨hfirst, -, hlast⟩ := List.pairwise_append.mp (hsorted.sublist hsub)
    have hle : ∀ t ∈ x :: mid, x ≤ t := by
      rintro t (_ | ⟨_, ht⟩)
      · exact le_rfl
      · exact (List.pairwise_cons.mp hfirst).1 t ht
    have hin : ∀ t ∈ x :: mid ++ [y], x ≤ t ∧ near x t := by
      intro t ht
      rcases List.mem_append.mp ht with ht | ht
      · exact ⟨hle t ht, hnear le_rfl (hlast t ht y List.mem_cons_self) hxy⟩
      · rw [List.mem_singleton.mp ht]
        exact ⟨hlast x List.mem_cons_self y List.mem_cons_self, hxy⟩
    have hcount : within near x (x :: mid ++ [y]) = mid.length + 2 := by
      rw [within, List.countP_eq_length.mpr fun t ht => decide_eq_true (hin t ht)]
      simp
    have hmax : within near x (x :: mid ++ [y]) ≤ limit + 1 := hsub.countP_le.trans (hall x)
    omega
  · intro hapart
    rw [within_le_iff hnear hself hsorted]
    rintro before t rest rfl
    by_contra hfull
    have hbefore := (List.pairwise_append.mp hsorted).1
    have hrecent : recent near t before = (before.dropWhile fun x => ¬ near x t).length := by
      rw [dropWhile_eq_filter hnear hbefore, ← List.countP_eq_length_filter]
      rfl
    rcases hlast : before.dropWhile (fun x => ¬ near x t) with _ | ⟨x, mid⟩
    · rw [hrecent, hlast] at hfull
      exact hfull (Nat.succ_pos _)
    · have hx : near x t := by
        have hmem : x ∈ before.filter fun x => near x t := by
          rw [← dropWhile_eq_filter hnear hbefore, hlast]
          exact List.mem_cons_self
        exact of_decide_eq_true (List.mem_filter.mp hmem).2
      rw [hrecent, hlast, List.length_cons] at hfull
      refine hapart (before.takeWhile fun x => ¬ near x t) x mid t rest ?_ (by omega) hx
      rw [← List.cons_append, ← List.append_assoc, ← hlast, List.takeWhile_append_dropWhile]

end Window
