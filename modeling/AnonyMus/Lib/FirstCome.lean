import Mathlib.Data.List.Induction
import Mathlib.Logic.Function.Defs

/-!
# First come, first served

Requests name a key and bring a value. The first request under a key settles the value: later ones
under the key are accepted when they bring the same, and only the first is recorded.

* `firstOf`, `firsts` — the first request under a key, and what is recorded of a sequence;
* `firstOf_firsts` — the record knows the first request of each key;
* `pairwise_firsts` — and holds one of each;
* `Accepts`, `accepts_iff` — a request is accepted exactly when no earlier accepted one under its key
  brought another value;
* `Accepts.again` — what was accepted stays so;
* `accepts_filter` — requests under other keys do not matter;
* `accepts_map` — what is accepted of translated requests.
-/

namespace FirstCome

variable {α κ ν : Type} [DecidableEq κ] (key : α → κ) (val : α → ν)

/-- The first request under the key `k`. -/
def firstOf (xs : List α) (k : κ) : Option α := xs.find? fun x => key x = k

/-- A request is recorded when none under its key is. -/
def record (xs : List α) (x : α) : List α :=
  match firstOf key xs (key x) with
  | some _ => xs
  | none => xs ++ [x]

/-- What is recorded of a sequence of requests. -/
def firsts (xs : List α) : List α := xs.foldl (record key) []

/-- After the requests `done`, `x` brings the settled value or is the first. -/
def Accepts (done : List α) (x : α) : Prop := ∀ y ∈ firstOf key done (key x), val y = val x

variable {key val} {xs ys done : List α} {x y : α} {k : κ}

/-! ## The record -/

theorem key_of_firstOf (h : firstOf key xs k = some x) : key x = k := by
  rw [firstOf] at h
  simpa using List.find?_some h

theorem firstOf_append : firstOf key (xs ++ ys) k = (firstOf key xs k).or (firstOf key ys k) :=
  List.find?_append

theorem firstOf_singleton : firstOf key [x] k = if key x = k then some x else none := by
  by_cases h : key x = k <;> simp [firstOf, h]

/-- What is not recorded is not a first request. -/
theorem firstOf_record : firstOf key (record key xs x) k = firstOf key (xs ++ [x]) k := by
  rw [record]
  rcases h : firstOf key xs (key x) with _ | y
  · rfl
  · -- the key of `x` is settled already
    show firstOf key xs k = _
    rw [firstOf_append, firstOf_singleton]
    by_cases hk : key x = k
    · rw [← hk, h, Option.some_or]
    · rw [if_neg hk, Option.or_none]

@[simp] theorem firsts_append_singleton : firsts key (xs ++ [x]) = record key (firsts key xs) x := by
  rw [firsts, firsts, List.foldl_append, List.foldl_cons, List.foldl_nil]

theorem firstOf_firsts : firstOf key (firsts key xs) k = firstOf key xs k := by
  induction xs using List.reverseRecOn generalizing k with
  | nil => rfl
  | append_singleton xs x ih =>
    rw [firsts_append_singleton, firstOf_record, firstOf_append, ih, ← firstOf_append]

/-- One request is recorded under each key. -/
theorem pairwise_firsts : (firsts key xs).Pairwise (key · ≠ key ·) := by
  induction xs using List.reverseRecOn with
  | nil => exact List.Pairwise.nil
  | append_singleton xs x ih =>
    rw [firsts_append_singleton, record]
    split
    · exact ih
    next hnew =>
      -- no request recorded so far is under the key of `x`
      rw [List.pairwise_append]
      refine ⟨ih, List.pairwise_singleton _ _, ?_⟩
      intro y hy z hz
      obtain rfl := List.mem_singleton.mp hz
      have := List.find?_eq_none.mp hnew y hy
      simpa using this

/-! ## Acceptance -/

/-- The first request under a key is accepted, and settles what the others must bring. -/
theorem accepts_iff : Accepts key val done x ↔ ∀ before y mid, done = before ++ y :: mid →
    key y = key x → Accepts key val before y → val y = val x := by
  constructor
  · rintro h before y mid rfl hkey hy
    rcases hfirst : firstOf key before (key y) with _ | z
    · -- it is the first itself
      refine h y ?_
      rw [firstOf_append, ← hkey, hfirst, Option.none_or, firstOf, List.find?_cons_of_pos (by simp)]
      rfl
    · rw [← hy z hfirst]
      refine h z ?_
      rw [firstOf_append, ← hkey, hfirst, Option.some_or]
      rfl
  · intro h y hy
    obtain ⟨hkey, before, mid, rfl, hnone⟩ := List.find?_eq_some_iff_append.mp hy
    refine h before y mid rfl (of_decide_eq_true hkey) ?_
    -- `y` is the first, so it is accepted for want of an earlier one
    intro z hz
    have hsame := (key_of_firstOf hz).trans (of_decide_eq_true hkey)
    simpa [hsame] using hnone z (List.mem_of_find?_eq_some hz)

theorem Accepts.again {mid : List α} (h : Accepts key val done x) :
    Accepts key val (done ++ x :: mid) x := by
  intro y hy
  rw [firstOf_append] at hy
  rcases hfirst : firstOf key done (key x) with _ | z
  · rw [hfirst, Option.none_or, firstOf, List.find?_cons_of_pos (by simp)] at hy
    rw [Option.some.inj hy]
  · rw [hfirst, Option.some_or] at hy
    obtain rfl := Option.some.inj hy
    exact h z hfirst

/-- Only the requests under its key matter. -/
theorem accepts_filter {p : α → Bool} (hp : ∀ y, key y = key x → p y = true) :
    Accepts key val (done.filter p) x ↔ Accepts key val done x := by
  have hfirst : firstOf key (done.filter p) (key x) = firstOf key done (key x) := by
    rw [firstOf, firstOf, List.find?_filter]
    congr 1
    funext y
    by_cases hy : key y = key x
    · simp [hy, hp y hy]
    · simp [hy]
  rw [Accepts, hfirst, Accepts]

/-! ## Translated requests -/

variable {β κ' : Type} [DecidableEq κ'] {key' : β → κ'} {f : α → β}

/-- A translation that tells the keys apart keeps the first request of each. -/
theorem firstOf_map (hkey : ∀ y ∈ xs, key' (f y) = key' (f x) ↔ key y = key x) :
    firstOf key' (xs.map f) (key' (f x)) = (firstOf key xs (key x)).map f := by
  induction xs with
  | nil => rfl
  | cons y xs ih =>
    have hhead := hkey y List.mem_cons_self
    have hrest := ih fun z hz => hkey z (List.mem_cons_of_mem _ hz)
    rw [firstOf, firstOf] at hrest
    rw [List.map_cons, firstOf, firstOf, List.find?_cons, List.find?_cons]
    by_cases hy : key y = key x
    · rw [decide_eq_true hy, decide_eq_true (hhead.mpr hy), Option.map_some]
    · rw [decide_eq_false hy, decide_eq_false (mt hhead.mp hy), hrest]

/-- A translation that tells the keys and the values apart keeps what is accepted. -/
theorem accepts_map {ν' : Type} {val' : β → ν'}
    (hkey : ∀ y ∈ xs, key' (f y) = key' (f x) ↔ key y = key x)
    (hval : ∀ y ∈ xs, val' (f y) = val' (f x) ↔ val y = val x) :
    Accepts key' val' (xs.map f) (f x) ↔ Accepts key val xs x := by
  rw [Accepts, firstOf_map hkey, Accepts]
  rcases hfirst : firstOf key xs (key x) with _ | y
  · simp
  · have hy : y ∈ xs := List.mem_of_find?_eq_some hfirst
    simpa using hval y hy

end FirstCome
