import Mathlib.Data.List.Nodup
import Mathlib.Logic.Function.Basic
import Mathlib.Logic.Function.Iterate

/-!
# Calls that read, store and number

Calls share a cell and a counter. A call reads the cell in its first turn,
stores the successor of what it has read in its second, and takes a number in
its third; between its turns other calls may take theirs. A schedule is the list
of the calls in the order of their turns.

* `takers` — the calls in the order in which they take a given turn;
* `Disjoint` — no call reads while another is between reading and storing;
* `Carries` — what a cell, a counter and calls look like after a schedule;
* `distinct_iff_disjoint` — calls read different values just if they are disjoint;
* `numbered_iff` — every call has read the value of its number just if, moreover,
  numbers are taken in the order of the stores.
-/

namespace Turns

/-! ## Schedules -/

/-- The calls that take their turn number `n`, when `prior` were the turns before. -/
def takers (n : ℕ) : List ℕ → List ℕ → List ℕ
  | _, [] => []
  | prior, i :: rest =>
    if prior.count i = n then i :: takers n (i :: prior) rest else takers n (i :: prior) rest

/-- No call takes its first turn while another has taken just its first. -/
def Disjoint : List ℕ → List ℕ → Prop
  | _, [] => True
  | prior, i :: rest =>
    (prior.count i = 0 → ∀ j ∈ prior, prior.count j ≠ 1) ∧ Disjoint (i :: prior) rest

instance : (prior σ : List ℕ) → Decidable (Disjoint prior σ)
  | _, [] => isTrue trivial
  | prior, i :: rest =>
    have := instDecidableDisjoint (i :: prior) rest
    inferInstanceAs (Decidable (_ ∧ _))

theorem mem_takers {n i : ℕ} {prior σ : List ℕ} :
    i ∈ takers n prior σ ↔ prior.count i ≤ n ∧ n < prior.count i + σ.count i := by
  induction σ generalizing prior with
  | nil =>
    simp only [takers, List.not_mem_nil, List.count_nil, Nat.add_zero, false_iff]
    omega
  | cons j rest ih =>
    by_cases hij : i = j
    · subst hij
      rw [takers, List.count_cons_self]
      split
      · rename_i hn
        simp only [List.mem_cons_self, true_iff]
        omega
      · rename_i hn
        rw [ih, List.count_cons_self]
        omega
    · have hne : j ≠ i := Ne.symm hij
      rw [takers, List.count_cons_of_ne hne]
      split
      · rw [List.mem_cons, ih, List.count_cons_of_ne hne, or_iff_right hij]
      · rw [ih, List.count_cons_of_ne hne]

theorem nodup_takers (n : ℕ) (prior σ : List ℕ) : (takers n prior σ).Nodup := by
  induction σ generalizing prior with
  | nil => exact List.nodup_nil
  | cons j rest ih =>
    rw [takers]
    split
    · rename_i hn
      refine List.nodup_cons.mpr ⟨fun hmem => ?_, ih _⟩
      have := (mem_takers.mp hmem).1
      rw [List.count_cons_self] at this
      omega
    · exact ih _

theorem length_takers_le (n : ℕ) (prior σ : List ℕ) : (takers n prior σ).length ≤ σ.length := by
  induction σ generalizing prior with
  | nil => exact Nat.le_refl _
  | cons j rest ih =>
    have hrest := ih (j :: prior)
    rw [takers, List.length_cons]
    split
    · rw [List.length_cons]
      omega
    · omega

theorem append_takers (n : ℕ) (l prior : List ℕ) (i : ℕ) (σ : List ℕ) :
    (if prior.count i = n then l ++ [i] else l) ++ takers n (i :: prior) σ =
      l ++ takers n prior (i :: σ) := by
  rw [takers]
  split
  · exact List.append_assoc ..
  · rfl

/-! ## Calls -/

variable {κ : Type}

/-- How far a call has got, with the value it has read. -/
inductive Phase (κ : Type)
  | idle
  | read (v : κ)
  | stored (v : κ)
  | done (v : κ) (number : ℕ)

/-- The value that a call has read. -/
def Phase.value? : Phase κ → Option κ
  | idle => none
  | read v => some v
  | stored v => some v
  | done v _ => some v

structure State (κ : Type) where
  cell    : κ
  counter : ℕ
  phase   : ℕ → Phase κ

section

variable (f : κ → κ)

/-- Call `i` takes its next turn. -/
def turn (w : State κ) (i : ℕ) : State κ :=
  match w.phase i with
  | .idle => { w with phase := Function.update w.phase i (.read w.cell) }
  | .read v => { w with cell := f v, phase := Function.update w.phase i (.stored v) }
  | .stored v => { w with
      counter := w.counter + 1, phase := Function.update w.phase i (.done v w.counter) }
  | .done _ _ => w

def run (σ : List ℕ) (w : State κ) : State κ := σ.foldl (turn f) w

def start (cell : κ) (counter : ℕ) : State κ := ⟨cell, counter, fun _ => .idle⟩

/-- Every call that began has its number. -/
def Settled (w : State κ) : Prop := ∀ i, w.phase i = .idle ∨ ∃ v n, w.phase i = .done v n

/-- The phase of a call is told by the number of turns it has taken. -/
structure Counts (prior : List ℕ) (w : State κ) : Prop where
  idle   : ∀ i, w.phase i = .idle ↔ prior.count i = 0
  read   : ∀ i, (∃ v, w.phase i = .read v) ↔ prior.count i = 1
  stored : ∀ i, (∃ v, w.phase i = .stored v) ↔ prior.count i = 2

variable {f} {w : State κ} {prior : List ℕ}

theorem counts_start (cell : κ) (counter : ℕ) : Counts [] (start cell counter) where
  idle i := ⟨fun _ => rfl, fun _ => rfl⟩
  read i := ⟨fun ⟨_, h⟩ => (by cases h), fun h => (by cases h)⟩
  stored i := ⟨fun ⟨_, h⟩ => (by cases h), fun h => (by cases h)⟩

/-- What one turn does, by the phase of the call that takes it. -/
theorem turn_cases (f : κ → κ) (w : State κ) (i : ℕ) :
    (w.phase i = .idle ∧ (turn f w i).phase i = .read w.cell ∧
      (turn f w i).cell = w.cell ∧ (turn f w i).counter = w.counter) ∨
    (∃ v, w.phase i = .read v ∧ (turn f w i).phase i = .stored v ∧
      (turn f w i).cell = f v ∧ (turn f w i).counter = w.counter) ∨
    (∃ v, w.phase i = .stored v ∧ (turn f w i).phase i = .done v w.counter ∧
      (turn f w i).cell = w.cell ∧ (turn f w i).counter = w.counter + 1) ∨
    (∃ v n, w.phase i = .done v n ∧ (turn f w i).phase i = .done v n ∧
      (turn f w i).cell = w.cell ∧ (turn f w i).counter = w.counter) := by
  rw [turn]
  cases hphase : w.phase i with
  | idle => exact .inl ⟨rfl, Function.update_self .., rfl, rfl⟩
  | read v => exact .inr (.inl ⟨v, rfl, Function.update_self .., rfl, rfl⟩)
  | stored v => exact .inr (.inr (.inl ⟨v, rfl, Function.update_self .., rfl, rfl⟩))
  | done v n => exact .inr (.inr (.inr ⟨v, n, rfl, hphase, rfl, rfl⟩))

/-- A turn leaves the other calls alone. -/
theorem turn_phase_of_ne {i j : ℕ} (hne : j ≠ i) : (turn f w i).phase j = w.phase j := by
  rw [turn]
  split
  case h_4 => rfl
  all_goals exact Function.update_of_ne hne ..

theorem counter_turn_le (f : κ → κ) (w : State κ) (i : ℕ) :
    (turn f w i).counter ≤ w.counter + 1 := by
  rcases turn_cases f w i with ⟨-, -, -, hn⟩ | ⟨-, -, -, -, hn⟩ | ⟨-, -, -, -, hn⟩ |
    ⟨-, -, -, -, -, hn⟩
  all_goals omega

theorem Counts.turn (h : Counts prior w) (i : ℕ) : Counts (i :: prior) (turn f w i) := by
  have hphase : ∀ j, ((Turns.turn f w i).phase j = .idle ↔ (i :: prior).count j = 0) ∧
      ((∃ v, (Turns.turn f w i).phase j = .read v) ↔ (i :: prior).count j = 1) ∧
      ((∃ v, (Turns.turn f w i).phase j = .stored v) ↔ (i :: prior).count j = 2) := by
    intro j
    have hidle := h.idle j
    have hread := h.read j
    have hstored := h.stored j
    by_cases hj : j = i
    · subst hj
      rw [List.count_cons_self]
      -- the call that takes the turn, by its phase
      rcases turn_cases f w j with ⟨hp, ht, -, -⟩ | ⟨v, hp, ht, -, -⟩ | ⟨v, hp, ht, -, -⟩ |
        ⟨v, n, hp, ht, -, -⟩
      · rw [ht, hidle.mp hp]
        simp
      · rw [ht, hread.mp ⟨v, hp⟩]
        simp
      · rw [ht, hstored.mp ⟨v, hp⟩]
        simp
      · rw [hp] at hidle hread hstored
        rw [ht]
        have hidle' : prior.count j ≠ 0 := fun h0 => by cases hidle.mpr h0
        have hread' : prior.count j ≠ 1 := fun h1 => by
          obtain ⟨u, hu⟩ := hread.mpr h1
          cases hu
        exact ⟨iff_of_false (by rintro ⟨⟩) (by omega),
          iff_of_false (by rintro ⟨u, ⟨⟩⟩) (by omega), iff_of_false (by rintro ⟨u, ⟨⟩⟩) (by omega)⟩
    · rw [turn_phase_of_ne hj, List.count_cons_of_ne (Ne.symm hj)]
      exact ⟨hidle, hread, hstored⟩
  exact ⟨fun j => (hphase j).1, fun j => (hphase j).2.1, fun j => (hphase j).2.2⟩

/-- What a call has read does not change. -/
theorem value?_turn {i j : ℕ} {v : κ} (h : (w.phase j).value? = some v) :
    ((turn f w i).phase j).value? = some v := by
  by_cases hj : j = i
  · subst hj
    rcases turn_cases f w j with ⟨hp, ht, -, -⟩ | ⟨u, hp, ht, -, -⟩ | ⟨u, hp, ht, -, -⟩ |
      ⟨u, n, hp, ht, -, -⟩
    · rw [hp] at h
      cases h
    all_goals
      rw [ht]
      rw [hp] at h
      exact h
  · rw [turn_phase_of_ne hj]
    exact h

theorem value?_run {σ : List ℕ} {j : ℕ} {v : κ} (h : (w.phase j).value? = some v) :
    ((run f σ w).phase j).value? = some v := by
  induction σ generalizing w with
  | nil => exact h
  | cons i σ ih => exact ih (value?_turn h)

/-! ## Numbers -/

theorem getElem?_append_of_eq {l : List ℕ} {k i j : ℕ} (h : l[k]? = some j) :
    (l ++ [i])[k]? = some j := by
  rw [List.getElem?_append_left (List.getElem?_eq_some_iff.mp h).1]
  exact h

/-- The calls `nums` have taken the numbers from `n₀` on, in this order. -/
structure Numbered (n₀ : ℕ) (nums : List ℕ) (w : State κ) : Prop where
  counter : w.counter = n₀ + nums.length
  done    : ∀ i v n, w.phase i = .done v n → ∃ k, n = n₀ + k ∧ nums[k]? = some i

theorem Numbered.turn {n₀ : ℕ} {nums : List ℕ} (h : Numbered n₀ nums w) (hcounts : Counts prior w)
    (i : ℕ) :
    Numbered n₀ (if prior.count i = 2 then nums ++ [i] else nums) (turn f w i) := by
  rcases turn_cases f w i with ⟨hp, ht, -, hn⟩ | ⟨u, hp, ht, -, hn⟩ | ⟨u, hp, ht, -, hn⟩ |
    ⟨u, m, hp, ht, -, hn⟩
  case inr.inr.inl =>
    rw [if_pos ((hcounts.stored i).mp ⟨u, hp⟩)]
    refine ⟨?_, fun j v n hj => ?_⟩
    · rw [hn, h.counter, List.length_append, List.length_singleton, Nat.add_assoc]
    · by_cases hji : j = i
      · rw [hji, ht] at hj
        cases hj
        refine ⟨nums.length, h.counter, ?_⟩
        rw [List.getElem?_concat_length, hji]
      · rw [turn_phase_of_ne hji] at hj
        obtain ⟨k, hk, hk'⟩ := h.done j v n hj
        exact ⟨k, hk, getElem?_append_of_eq hk'⟩
  -- in every other turn no call takes a number
  all_goals
    have hcount : prior.count i ≠ 2 := fun h2 => by
      obtain ⟨v, hv⟩ := (hcounts.stored i).mpr h2
      rw [hp] at hv
      cases hv
    rw [if_neg hcount]
    refine ⟨hn.trans h.counter, fun j v n hj => ?_⟩
    by_cases hji : j = i
    · subst hji
      rw [ht] at hj
      cases hj
      try exact h.done j u m hp
    · rw [turn_phase_of_ne hji] at hj
      exact h.done j v n hj

/-! ## The cell -/

/-- Disjoint calls, of which `order` have stored, in this order: the cell has
moved on by one for each, and each has read the value at its place. -/
structure Carries (f : κ → κ) (c₀ : κ) (order : List ℕ) (w : State κ) : Prop where
  cell   : w.cell = f^[order.length] c₀
  read   : ∀ i v, w.phase i = .read v → v = w.cell
  order  : ∀ i v, w.phase i = .stored v ∨ (∃ n, w.phase i = .done v n) →
    ∃ k, v = f^[k] c₀ ∧ order[k]? = some i

theorem Carries.turn {c₀ : κ} {order : List ℕ} (h : Carries f c₀ order w)
    (hcounts : Counts prior w) {i : ℕ}
    (hsingle : ∀ j, prior.count i = 1 → prior.count j = 1 → j = i) :
    Carries f c₀ (if prior.count i = 1 then order ++ [i] else order) (turn f w i) := by
  rcases turn_cases f w i with ⟨hp, ht, hc, -⟩ | ⟨u, hp, ht, hc, -⟩ | ⟨u, hp, ht, hc, -⟩ |
    ⟨u, m, hp, ht, hc, -⟩
  case inr.inl =>
    have hcount := (hcounts.read i).mp ⟨u, hp⟩
    have hu := h.read i u hp
    rw [if_pos hcount]
    refine ⟨?_, fun j v hj => ?_, fun j v hj => ?_⟩
    · rw [hc, hu, h.cell, List.length_append, List.length_singleton, Function.iterate_succ_apply']
    · by_cases hji : j = i
      · rw [hji, ht] at hj
        cases hj
      · -- no other call is between reading and storing
        rw [turn_phase_of_ne hji] at hj
        exact absurd (hsingle j hcount ((hcounts.read j).mp ⟨v, hj⟩)) hji
    · by_cases hji : j = i
      · rw [hji, ht] at hj
        rcases hj with hj | ⟨n, hj⟩
        · cases hj
          refine ⟨order.length, hu.trans h.cell, ?_⟩
          rw [List.getElem?_concat_length, hji]
        · cases hj
      · rw [turn_phase_of_ne hji] at hj
        obtain ⟨k, hk, hk'⟩ := h.order j v hj
        exact ⟨k, hk, getElem?_append_of_eq hk'⟩
  all_goals
    have hcount : prior.count i ≠ 1 := fun h1 => by
      obtain ⟨v, hv⟩ := (hcounts.read i).mpr h1
      rw [hp] at hv
      cases hv
    rw [if_neg hcount]
    refine ⟨hc.trans h.cell, fun j v hj => ?_, fun j v hj => ?_⟩
    · rw [hc]
      by_cases hji : j = i
      · rw [hji, ht] at hj
        cases hj
        try rfl
      · rw [turn_phase_of_ne hji] at hj
        exact h.read j v hj
    · by_cases hji : j = i
      · subst hji
        rw [ht] at hj
        rcases hj with hj | ⟨n, hj⟩ <;> cases hj
        all_goals
          first
            | exact h.order j u (.inl hp)
            | exact h.order j u (.inr ⟨m, hp⟩)
      · rw [turn_phase_of_ne hji] at hj
        exact h.order j v hj

/-! ## Whole schedules -/

/-- At most one call has taken just its first turn. -/
def Single (prior : List ℕ) : Prop := ∀ i j, prior.count i = 1 → prior.count j = 1 → j = i

theorem Single.turn (h : Single prior) {i : ℕ}
    (halone : prior.count i = 0 → ∀ j ∈ prior, prior.count j ≠ 1) : Single (i :: prior) := by
  have hcount : (i :: prior).count i = prior.count i + 1 := List.count_cons_self
  have hmem : ∀ j, prior.count j = 1 → j ∈ prior := fun j hj =>
    List.count_pos_iff.mp (by omega)
  intro j k hj hk
  by_cases hji : j = i
  · by_cases hki : k = i
    · rw [hji, hki]
    · rw [List.count_cons_of_ne (Ne.symm hki)] at hk
      rw [hji, hcount] at hj
      exact absurd hk (halone (by omega) k (hmem k hk))
  · rw [List.count_cons_of_ne (Ne.symm hji)] at hj
    by_cases hki : k = i
    · rw [hki, hcount] at hk
      exact absurd hj (halone (by omega) j (hmem j hj))
    · rw [List.count_cons_of_ne (Ne.symm hki)] at hk
      exact h j k hj hk

theorem counts_run (h : Counts prior w) (σ : List ℕ) :
    Counts (σ.reverse ++ prior) (run f σ w) := by
  induction σ generalizing w prior with
  | nil => exact h
  | cons i σ ih =>
    rw [List.reverse_cons, List.append_assoc]
    exact ih (h.turn i)

theorem Numbered.run {n₀ : ℕ} {nums : List ℕ} (h : Numbered n₀ nums w) (hcounts : Counts prior w)
    (σ : List ℕ) : Numbered n₀ (nums ++ takers 2 prior σ) (run f σ w) := by
  induction σ generalizing w prior nums with
  | nil =>
    rw [takers, List.append_nil]
    exact h
  | cons i σ ih =>
    rw [← append_takers]
    exact ih (h.turn hcounts i) (hcounts.turn i)

theorem Carries.run {c₀ : κ} {order : List ℕ} (h : Carries f c₀ order w)
    (hcounts : Counts prior w) (hsingle : Single prior) {σ : List ℕ}
    (hdisjoint : Disjoint prior σ) :
    Carries f c₀ (order ++ takers 1 prior σ) (run f σ w) := by
  induction σ generalizing w prior order with
  | nil =>
    rw [takers, List.append_nil]
    exact h
  | cons i σ ih =>
    obtain ⟨halone, hrest⟩ := hdisjoint
    rw [← append_takers]
    exact ih (h.turn hcounts (hsingle i)) (hcounts.turn i) (hsingle.turn halone) hrest

/-- The first call that reads before another has stored reads what that one has read. -/
theorem exists_same_value {c₀ : κ} {order : List ℕ} (h : Carries f c₀ order w)
    (hcounts : Counts prior w) (hsingle : Single prior) {σ : List ℕ}
    (hoverlap : ¬ Disjoint prior σ) :
    ∃ i j v, i ≠ j ∧ ((run f σ w).phase i).value? = some v ∧
      ((run f σ w).phase j).value? = some v := by
  induction σ generalizing w prior order with
  | nil => exact absurd trivial hoverlap
  | cons i σ ih =>
    by_cases halone : prior.count i = 0 → ∀ j ∈ prior, prior.count j ≠ 1
    · have hrest : ¬ Disjoint (i :: prior) σ := fun hd => hoverlap ⟨halone, hd⟩
      exact ih (h.turn hcounts (hsingle i)) (hcounts.turn i) (hsingle.turn halone) hrest
    · push Not at halone
      obtain ⟨hzero, j, -, hone⟩ := halone
      have hne : i ≠ j := by
        rintro rfl
        omega
      obtain ⟨v, hv⟩ := (hcounts.read j).mpr hone
      have hcell := h.read j v hv
      have hidle := (hcounts.idle i).mpr hzero
      refine ⟨i, j, v, hne, ?_, ?_⟩
      · refine value?_run (w := Turns.turn f w i) ?_
        rw [Turns.turn, hidle, hcell]
        dsimp only
        rw [Function.update_self]
        rfl
      · refine value?_run (w := Turns.turn f w i) ?_
        rw [turn_phase_of_ne (Ne.symm hne), hv]
        rfl

section Settled

variable {μ : Type} {g : κ → μ} {c₀ : κ} {n₀ : ℕ} {σ : List ℕ}

theorem numbered_start : Numbered n₀ [] (start c₀ n₀) :=
  ⟨rfl, fun _ _ _ h => (by cases h)⟩

theorem carries_start : Carries f c₀ [] (start c₀ n₀) :=
  ⟨rfl, fun _ _ h => (by cases h), fun _ _ h => (by rcases h with h | ⟨_, h⟩ <;> cases h)⟩

theorem single_nil : Single [] := fun _ _ h => (by cases h)

theorem numbered_run (f : κ → κ) (c₀ : κ) (n₀ : ℕ) (σ : List ℕ) :
    Numbered n₀ (takers 2 [] σ) (run f σ (start c₀ n₀)) :=
  numbered_start.run (counts_start c₀ n₀) σ

theorem carries_run (f : κ → κ) (c₀ : κ) (n₀ : ℕ) (hdisjoint : Disjoint [] σ) :
    Carries f c₀ (takers 1 [] σ) (run f σ (start c₀ n₀)) :=
  carries_start.run (counts_start c₀ n₀) single_nil hdisjoint

/-- A call with a given turn behind it has its number. -/
theorem done_of_mem_takers (hsettled : Settled (run f σ (start c₀ n₀))) {n i : ℕ}
    (hmem : i ∈ takers n [] σ) : ∃ v m, (run f σ (start c₀ n₀)).phase i = .done v m := by
  have hcount := (mem_takers.mp hmem).2
  rw [List.count_nil, Nat.zero_add] at hcount
  refine (hsettled i).resolve_left fun hidle => ?_
  have hzero := ((counts_run (counts_start c₀ n₀) σ).idle i).mp hidle
  rw [List.append_nil, List.count_reverse] at hzero
  omega

theorem lt_of_takers {n k i : ℕ} (h : (takers n [] σ)[k]? = some i) : k < σ.length :=
  Nat.lt_of_lt_of_le (List.getElem?_eq_some_iff.mp h).1 (length_takers_le n [] σ)

theorem takers_index {n k l i : ℕ} (hk : (takers n [] σ)[k]? = some i)
    (hl : (takers n [] σ)[l]? = some i) : k = l :=
  (List.getElem?_inj (List.getElem?_eq_some_iff.mp hk).1 (nodup_takers n [] σ)).mp
    (hk.trans hl.symm)

/-- **Distinct values.** What settled calls show of the values that they have read is
different just if the calls were disjoint. -/
theorem distinct_iff_disjoint
    (hinj : ∀ k < σ.length, ∀ l < σ.length, g (f^[k] c₀) = g (f^[l] c₀) → k = l)
    (hsettled : Settled (run f σ (start c₀ n₀))) :
    (∀ i j v u n m, (run f σ (start c₀ n₀)).phase i = .done v n →
      (run f σ (start c₀ n₀)).phase j = .done u m → g v = g u → i = j) ↔ Disjoint [] σ := by
  constructor
  · intro hdistinct
    by_contra hoverlap
    obtain ⟨i, j, v, hne, hi, hj⟩ := exists_same_value (f := f) (w := start c₀ n₀)
      carries_start (counts_start c₀ n₀) single_nil hoverlap
    have hdone : ∀ k, ((run f σ (start c₀ n₀)).phase k).value? = some v →
        ∃ n, (run f σ (start c₀ n₀)).phase k = .done v n := by
      intro k hk
      rcases hsettled k with hidle | ⟨u, n, hn⟩
      · rw [hidle] at hk
        cases hk
      · rw [hn] at hk ⊢
        obtain rfl := Option.some.inj hk
        exact ⟨n, rfl⟩
    obtain ⟨n, hn⟩ := hdone i hi
    obtain ⟨m, hm⟩ := hdone j hj
    exact hne (hdistinct i j v v n m hn hm rfl)
  · intro hdisjoint i j v u n m hi hj hvu
    have hcarries := carries_run f c₀ n₀ hdisjoint
    obtain ⟨k, rfl, hki⟩ := hcarries.order i v (.inr ⟨n, hi⟩)
    obtain ⟨l, rfl, hlj⟩ := hcarries.order j u (.inr ⟨m, hj⟩)
    obtain rfl := hinj k (lt_of_takers hki) l (lt_of_takers hlj) hvu
    exact Option.some.inj (hki.symm.trans hlj)

/-- **Numbered values.** Settled calls each show the value of their number just if they
were disjoint and took their numbers in the order in which they stored. -/
theorem numbered_iff
    (hinj : ∀ k < σ.length, ∀ l < σ.length, g (f^[k] c₀) = g (f^[l] c₀) → k = l)
    (hsettled : Settled (run f σ (start c₀ n₀))) :
    (∀ i v k, (run f σ (start c₀ n₀)).phase i = .done v (n₀ + k) → g v = g (f^[k] c₀)) ↔
    Disjoint [] σ ∧ takers 1 [] σ = takers 2 [] σ := by
  have hnumbered := numbered_run f c₀ n₀ σ
  constructor
  · intro hvalues
    have hdisjoint : Disjoint [] σ := by
      refine (distinct_iff_disjoint hinj hsettled).mp fun i j v u n m hi hj hvu => ?_
      obtain ⟨k, rfl, hki⟩ := hnumbered.done i v n hi
      obtain ⟨l, rfl, hlj⟩ := hnumbered.done j u m hj
      have hsame : g (f^[k] c₀) = g (f^[l] c₀) :=
        (hvalues i v k hi).symm.trans (hvu.trans (hvalues j u l hj))
      -- the same number was given once
      obtain rfl := hinj k (lt_of_takers hki) l (lt_of_takers hlj) hsame
      exact Option.some.inj (hki.symm.trans hlj)
    have hcarries := carries_run f c₀ n₀ hdisjoint
    -- the place of a call among the stores is its place among the numbers
    have hplace : ∀ i v n, (run f σ (start c₀ n₀)).phase i = .done v n →
        ∃ k : ℕ, (takers 1 [] σ)[k]? = some i ∧ (takers 2 [] σ)[k]? = some i := by
      intro i v n hi
      obtain ⟨k, rfl, hki⟩ := hcarries.order i v (.inr ⟨n, hi⟩)
      obtain ⟨l, rfl, hli⟩ := hnumbered.done i _ n hi
      obtain rfl := hinj k (lt_of_takers hki) l (lt_of_takers hli) (hvalues i _ l hi)
      exact ⟨k, hki, hli⟩
    refine ⟨hdisjoint, List.ext_getElem? fun k => ?_⟩
    cases hstored : (takers 1 [] σ)[k]? with
    | some i =>
      obtain ⟨v, n, hi⟩ := done_of_mem_takers hsettled (List.mem_of_getElem? hstored)
      obtain ⟨l, hl, hl'⟩ := hplace i v n hi
      obtain rfl := takers_index hl hstored
      exact hl'.symm
    | none =>
      cases htaken : (takers 2 [] σ)[k]? with
      | none => rfl
      | some i =>
        obtain ⟨v, n, hi⟩ := done_of_mem_takers hsettled (List.mem_of_getElem? htaken)
        obtain ⟨l, hl, hl'⟩ := hplace i v n hi
        obtain rfl := takers_index hl' htaken
        rw [hstored] at hl
        cases hl
  · rintro ⟨hdisjoint, horder⟩ i v n hi
    have hcarries := carries_run f c₀ n₀ hdisjoint
    obtain ⟨k, rfl, hki⟩ := hcarries.order i v (.inr ⟨_, hi⟩)
    obtain ⟨l, hl, hli⟩ := hnumbered.done i _ _ hi
    obtain rfl : n = l := Nat.add_left_cancel hl
    rw [horder] at hki
    obtain rfl := takers_index hki hli
    rfl

end Settled

end

end Turns
