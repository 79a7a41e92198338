import Mathlib.Algebra.GroupWithZero.Nat
import Mathlib.Data.List.Nodup
import Mathlib.Data.List.Perm.Subperm
import Mathlib.Tactic.Ext

/-!
# Insertion-ordered dictionaries

A finite map that remembers the order in which its keys were first inserted:
the behaviour of a Python `dict`, a JavaScript object with string keys or a
Java `LinkedHashMap`, and (with the order ignored) of a hash map. The key list
carries its own freshness proof, so a dictionary with a repeated key cannot be
built.

* `get?_insert`, `get?_erase` — lookups after a write;
* `mem_entries_iff` — the entries are the lookups;
* `erase_eq_self_iff` — erasing changes the dictionary exactly when the key
  was there;
* `get?_of_get?_dropOldest` — evicting the oldest entry only removes lookups;
* `filter`, `filter_insert`, `filter_erase` — the entries in view, and writes to others;
* `keys_insert` — the keys after a write, in their order;
* `ext_get?` — a dictionary is its keys and its lookups;
* `values_insert_subperm`, `values_erase_subperm` — the stored values;
* `weigh`, `weigh_insert`, `weigh_erase`, `weigh_filter`, `sum_map_keys` — sums over the entries.
-/

/-- A dictionary: its entries, oldest first, with distinct keys. -/
@[ext] structure Dict (κ ν : Type) where
  entries : List (κ × ν)
  nodup   : (entries.map Prod.fst).Nodup

namespace Dict

variable {κ ν : Type}

def empty : Dict κ ν := ⟨[], List.nodup_nil⟩

def size (d : Dict κ ν) : Nat := d.entries.length

instance [DecidableEq κ] [DecidableEq ν] : DecidableEq (Dict κ ν) := fun d d' =>
  decidable_of_iff (d.entries = d'.entries) ⟨Dict.ext, congrArg entries⟩

/-- Drop the entry that has been in the dictionary longest. -/
def dropOldest (d : Dict κ ν) : Dict κ ν :=
  ⟨d.entries.tail, by simpa using d.nodup.sublist (List.tail_sublist _)⟩

variable [DecidableEq κ]

def get? (d : Dict κ ν) (k : κ) : Option ν :=
  (d.entries.find? fun e => e.1 = k).map Prod.snd

def erase (d : Dict κ ν) (k : κ) : Dict κ ν :=
  ⟨d.entries.filter fun e => e.1 ≠ k,
    d.nodup.sublist ((List.filter_sublist (l := d.entries)).map Prod.fst)⟩

/-- Replace the value in place when `k` is there, append otherwise. -/
def insertEntries (es : List (κ × ν)) (k : κ) (v : ν) : List (κ × ν) :=
  match es with
  | [] => [(k, v)]
  | e :: rest => if e.1 = k then (k, v) :: rest else e :: insertEntries rest k v

theorem mem_keys_insertEntries {es : List (κ × ν)} {k k' : κ} {v : ν} :
    k' ∈ (insertEntries es k v).map Prod.fst ↔ k' = k ∨ k' ∈ es.map Prod.fst := by
  induction es with
  | nil => simp [insertEntries]
  | cons e rest ih =>
    by_cases he : e.1 = k
    · subst he
      simp [insertEntries]
    · simp only [insertEntries, if_neg he, List.map_cons, List.mem_cons, ih]
      exact or_left_comm

theorem nodup_insertEntries {es : List (κ × ν)} (h : (es.map Prod.fst).Nodup)
    (k : κ) (v : ν) : ((insertEntries es k v).map Prod.fst).Nodup := by
  induction es with
  | nil => simp [insertEntries]
  | cons e rest ih =>
    rw [List.map_cons, List.nodup_cons] at h
    by_cases he : e.1 = k
    · subst he
      simpa [insertEntries] using h
    · rw [insertEntries, if_neg he, List.map_cons, List.nodup_cons,
        mem_keys_insertEntries]
      exact ⟨fun hmem => hmem.elim he h.1, ih h.2⟩

def insert (d : Dict κ ν) (k : κ) (v : ν) : Dict κ ν :=
  ⟨insertEntries d.entries k v, nodup_insertEntries d.nodup k v⟩

/-! ## Lookups -/

@[simp] theorem get?_empty (k : κ) : (empty : Dict κ ν).get? k = none := rfl

theorem get?_insert (d : Dict κ ν) (k k' : κ) (v : ν) :
    (d.insert k v).get? k' = if k' = k then some v else d.get? k' := by
  obtain ⟨es, hes⟩ := d
  simp only [insert, get?]
  clear hes
  induction es with
  | nil => by_cases hk : k' = k <;> simp [insertEntries, hk, eq_comm]
  | cons e rest ih =>
    by_cases he : e.1 = k
    · subst he
      by_cases hk : e.1 = k'
      · simp [insertEntries, hk]
      · simp [insertEntries, hk, Ne.symm hk]
    · rw [insertEntries, if_neg he, List.find?_cons, List.find?_cons]
      by_cases hk : e.1 = k'
      · have : k' ≠ k := fun h => he (hk.trans h)
        simp [hk, this]
      · simpa [hk] using ih

theorem get?_erase (d : Dict κ ν) (k k' : κ) :
    (d.erase k).get? k' = if k' = k then none else d.get? k' := by
  simp only [erase, get?, List.find?_filter]
  by_cases hk : k' = k
  · subst hk
    simp
  · rw [if_neg hk]
    congr 2
    funext e
    by_cases he : e.1 = k'
    · simp [he, hk]
    · simp [he]

theorem get?_eq_none_iff {d : Dict κ ν} {k : κ} :
    d.get? k = none ↔ ∀ e ∈ d.entries, e.1 ≠ k := by
  simp [get?]

theorem mem_entries_iff {d : Dict κ ν} {k : κ} {v : ν} :
    (k, v) ∈ d.entries ↔ d.get? k = some v := by
  obtain ⟨es, hes⟩ := d
  dsimp only [get?]
  induction es with
  | nil => simp
  | cons e rest ih =>
    obtain ⟨hnew, hrest⟩ := List.nodup_cons.mp hes
    by_cases he : e.1 = k
    · subst he
      -- no later entry has the key
      have hnot : (e.1, v) ∉ rest := fun hmem => hnew (List.mem_map.mpr ⟨_, hmem, rfl⟩)
      rw [List.mem_cons, or_iff_left hnot, List.find?_cons_of_pos (by simp), Option.map_some,
        Option.some.injEq, Prod.ext_iff]
      exact ⟨fun h => h.2.symm, fun h => ⟨rfl, h.symm⟩⟩
    · rw [List.mem_cons, List.find?_cons_of_neg (by simpa using he), ← ih hrest]
      exact or_iff_right fun h => he (congrArg Prod.fst h).symm

/-- Erasing a key is visible exactly when the key was stored. -/
theorem erase_eq_self_iff {d : Dict κ ν} {k : κ} :
    d.erase k = d ↔ d.get? k = none := by
  rw [get?_eq_none_iff, Dict.ext_iff]
  simp [erase, List.filter_eq_self]

/-- What survives the eviction of the oldest entry was there before. -/
theorem get?_of_get?_dropOldest {d : Dict κ ν} {k : κ} {v : ν}
    (h : d.dropOldest.get? k = some v) : d.get? k = some v := by
  obtain ⟨es, hes⟩ := d
  cases es with
  | nil => exact h
  | cons e rest =>
    rw [List.map_cons, List.nodup_cons] at hes
    simp only [dropOldest, get?, List.tail_cons, Option.map_eq_some_iff] at h ⊢
    obtain ⟨e', hfind, rfl⟩ := h
    have hkey : e'.1 = k := by simpa using List.find?_some hfind
    -- the evicted key is not the one that was found
    have hne : ¬ e.1 = k := fun he =>
      hes.1 (he.trans hkey.symm ▸
        List.mem_map_of_mem (f := Prod.fst) (List.mem_of_find?_eq_some hfind))
    exact ⟨e', by simpa [hne] using hfind, rfl⟩

/-! ## Views -/

/-- The entries that are in view. -/
def filter (p : κ × ν → Bool) (d : Dict κ ν) : Dict κ ν :=
  ⟨d.entries.filter p, d.nodup.sublist ((List.filter_sublist (l := d.entries)).map Prod.fst)⟩

theorem get?_filter {p : κ × ν → Bool} {d : Dict κ ν} {k : κ} {v : ν} :
    (d.filter p).get? k = some v ↔ d.get? k = some v ∧ p (k, v) = true := by
  rw [← mem_entries_iff, ← mem_entries_iff]
  exact List.mem_filter

theorem get?_filter_eq (p : κ × ν → Bool) (d : Dict κ ν) (k : κ) :
    (d.filter p).get? k = (d.get? k).filter fun v => p (k, v) := by
  ext v
  rw [get?_filter, Option.filter_eq_some_iff]

/-- The entries with their values changed. -/
def mapValues {μ : Type} (f : ν → μ) (d : Dict κ ν) : Dict κ μ :=
  ⟨d.entries.map fun e => (e.1, f e.2), by simpa [List.map_map, Function.comp_def] using d.nodup⟩

theorem get?_mapValues {μ : Type} (f : ν → μ) (d : Dict κ ν) (k : κ) :
    (d.mapValues f).get? k = (d.get? k).map f := by
  simp only [mapValues, get?, List.find?_map, Option.map_map]
  rfl

/-- A write to an entry that is out of view, before and after. -/
theorem filter_insert {p : κ × ν → Bool} {d : Dict κ ν} {k : κ} {v : ν} (hnew : p (k, v) = false)
    (hold : ∀ v', d.get? k = some v' → p (k, v') = false) :
    (d.insert k v).entries.filter p = d.entries.filter p := by
  have hhidden : ∀ e ∈ d.entries, e.1 = k → p e = false := by
    rintro ⟨k', v'⟩ he rfl
    exact hold v' (mem_entries_iff.mp he)
  unfold insert
  dsimp only
  generalize d.entries = es at hhidden
  induction es with
  | nil => simp [insertEntries, hnew]
  | cons e rest ih =>
    rw [insertEntries]
    by_cases he : e.1 = k
    · have hp := hhidden e List.mem_cons_self he
      rw [if_pos he, List.filter_cons_of_neg (by simp [hnew]), List.filter_cons_of_neg (by simp [hp])]
    · rw [if_neg he, List.filter_cons, List.filter_cons,
        ih fun e' he' => hhidden e' (List.mem_cons_of_mem e he')]

/-- An entry that is out of view is erased. -/
theorem filter_erase {p : κ × ν → Bool} {d : Dict κ ν} {k : κ}
    (hold : ∀ v, d.get? k = some v → p (k, v) = false) :
    (d.erase k).entries.filter p = d.entries.filter p := by
  unfold erase
  dsimp only
  rw [List.filter_filter]
  refine List.filter_congr ?_
  rintro ⟨k', v⟩ he
  by_cases hk : k' = k
  · subst hk
    simp [hold v (mem_entries_iff.mp he)]
  · simp [hk]

/-- A new key comes last. -/
theorem entries_insert_of_new {d : Dict κ ν} {k : κ} {v : ν} (hnew : d.get? k = none) :
    (d.insert k v).entries = d.entries ++ [(k, v)] := by
  have hne := get?_eq_none_iff.mp hnew
  unfold insert
  dsimp only
  generalize d.entries = es at hne
  induction es with
  | nil => rfl
  | cons e rest ih =>
    rw [insertEntries, if_neg (hne e List.mem_cons_self),
      ih fun e' he' => hne e' (List.mem_cons_of_mem e he'), List.cons_append]

/-- Writing what is there changes nothing. -/
theorem insert_of_get? {d : Dict κ ν} {k : κ} {v : ν} (h : d.get? k = some v) : d.insert k v = d := by
  obtain ⟨es, hes⟩ := d
  have hmem := mem_entries_iff.mpr h
  apply Dict.ext
  show insertEntries es k v = es
  dsimp only at hmem
  clear h
  induction es with
  | nil => cases hmem
  | cons e rest ih =>
    obtain ⟨hnew, hrest⟩ := List.nodup_cons.mp hes
    rw [insertEntries]
    by_cases he : e.1 = k
    · -- no later entry has the key
      rcases List.mem_cons.mp hmem with rfl | hmem
      · rw [if_pos he]
      · exact absurd (List.mem_map.mpr ⟨_, hmem, he.symm⟩) hnew
    · rcases List.mem_cons.mp hmem with rfl | hmem
      · exact absurd rfl he
      · rw [if_neg he, ih hrest hmem]

/-- A new value that `f` takes for the old one is not seen through `f`. -/
theorem map_entries_insert {μ : Type} (f : ν → μ) {d : Dict κ ν} {k : κ} {v v' : ν}
    (hold : d.get? k = some v) (hf : f v' = f v) :
    (d.insert k v').entries.map (fun e => (e.1, f e.2)) = d.entries.map fun e => (e.1, f e.2) := by
  have hmem := mem_entries_iff.mpr hold
  obtain ⟨es, hes⟩ := d
  show (insertEntries es k v').map _ = es.map _
  dsimp only at hmem
  clear hold
  induction es with
  | nil => cases hmem
  | cons e rest ih =>
    obtain ⟨hnew, hrest⟩ := List.nodup_cons.mp hes
    rw [insertEntries]
    rcases List.mem_cons.mp hmem with rfl | hmem
    · rw [if_pos rfl, List.map_cons, List.map_cons, hf]
    · have hne : e.1 ≠ k := fun he => hnew (List.mem_map.mpr ⟨_, hmem, he.symm⟩)
      rw [if_neg hne, List.map_cons, List.map_cons, ih hrest hmem]

/-! ## Sizes -/

theorem length_insertEntries_le (es : List (κ × ν)) (k : κ) (v : ν) :
    (insertEntries es k v).length ≤ es.length + 1 := by
  induction es with
  | nil => simp [insertEntries]
  | cons e rest ih =>
    rw [insertEntries]
    split
    · simp
    · simpa using ih

theorem size_insert_le (d : Dict κ ν) (k : κ) (v : ν) :
    (d.insert k v).size ≤ d.size + 1 :=
  length_insertEntries_le d.entries k v

/-! ## Keys -/

def keys (d : Dict κ ν) : List κ := d.entries.map Prod.fst

omit [DecidableEq κ] in
@[simp] theorem length_keys (d : Dict κ ν) : d.keys.length = d.size := List.length_map ..

theorem get?_eq_none_iff_notMem_keys {d : Dict κ ν} {k : κ} : d.get? k = none ↔ k ∉ d.keys := by
  rw [get?_eq_none_iff, keys, List.mem_map]
  constructor
  · rintro h ⟨e, he, rfl⟩
    exact h e he rfl
  · intro h e he hk
    exact h ⟨e, he, hk⟩

theorem mem_keys_insert {d : Dict κ ν} {k k' : κ} {v : ν} :
    k' ∈ (d.insert k v).keys ↔ k' = k ∨ k' ∈ d.keys :=
  mem_keys_insertEntries

theorem mem_keys_erase {d : Dict κ ν} {k k' : κ} :
    k' ∈ (d.erase k).keys ↔ k' ∈ d.keys ∧ k' ≠ k := by
  rw [← not_iff_not, ← get?_eq_none_iff_notMem_keys, get?_erase, not_and_or, not_not,
    ← get?_eq_none_iff_notMem_keys]
  by_cases hk : k' = k
  · simp [hk]
  · simp [hk]

/-- The keys in their order after `k` is written. -/
def addKey (ks : List κ) (k : κ) : List κ := if k ∈ ks then ks else ks ++ [k]

theorem keys_insert (d : Dict κ ν) (k : κ) (v : ν) : (d.insert k v).keys = addKey d.keys k := by
  obtain ⟨es, hes⟩ := d
  simp only [insert, keys]
  clear hes
  induction es with
  | nil => rfl
  | cons e rest ih =>
    by_cases he : e.1 = k
    · subst he
      rw [insertEntries, if_pos rfl, List.map_cons, List.map_cons]
      exact (if_pos List.mem_cons_self).symm
    · rw [insertEntries, if_neg he, List.map_cons, ih, List.map_cons, addKey, addKey]
      by_cases hmem : k ∈ rest.map Prod.fst
      · rw [if_pos hmem, if_pos (List.mem_cons_of_mem _ hmem)]
      · rw [if_neg hmem, if_neg fun h => (List.mem_cons.mp h).elim (Ne.symm he) hmem]
        rfl

/-- Two dictionaries with the same keys in the same order and the same lookups are equal. -/
theorem ext_get? {d d' : Dict κ ν} (hkeys : d.keys = d'.keys) (h : ∀ k, d.get? k = d'.get? k) :
    d = d' := by
  apply Dict.ext
  have hlength : d.entries.length = d'.entries.length := by
    simpa [keys] using congrArg List.length hkeys
  refine List.ext_getElem hlength fun i hi hi' => ?_
  have hkey : d.entries[i].1 = d'.entries[i].1 := by
    have hget : d.keys[i]? = d'.keys[i]? := by rw [hkeys]
    simpa [keys, hi, hi'] using hget
  have hvalue : d.get? d.entries[i].1 = some d.entries[i].2 :=
    mem_entries_iff.mp (List.getElem_mem hi)
  have hvalue' : d'.get? d'.entries[i].1 = some d'.entries[i].2 :=
    mem_entries_iff.mp (List.getElem_mem hi')
  rw [h, hkey, hvalue', Option.some.injEq] at hvalue
  exact Prod.ext hkey hvalue.symm

/-! ## Values -/

def values (d : Dict κ ν) : List ν := d.entries.map Prod.snd

omit [DecidableEq κ] in
@[simp] theorem values_empty : (empty : Dict κ ν).values = [] := rfl

omit [DecidableEq κ] in
theorem subperm_map {l l' : List ν} (h : l.Subperm l') {μ : Type} (f : ν → μ) :
    (l.map f).Subperm (l'.map f) := by
  obtain ⟨l'', hperm, hsub⟩ := h
  exact ⟨l''.map f, hperm.map f, hsub.map f⟩

/-- A write adds one value, and may lose the one it replaces. -/
theorem values_insert_subperm (d : Dict κ ν) (k : κ) (v : ν) :
    (d.insert k v).values.Subperm (v :: d.values) := by
  obtain ⟨es, hes⟩ := d
  simp only [insert, values]
  clear hes
  induction es with
  | nil => exact List.Subperm.refl _
  | cons e rest ih =>
    rw [insertEntries]
    split
    · exact ((List.sublist_cons_self _ _).cons_cons v).subperm
    · exact ((List.subperm_cons e.2).mpr ih).trans (List.Perm.swap v e.2 _).subperm

/-- Removing a key takes its value out. -/
theorem values_erase_subperm {d : Dict κ ν} {k : κ} {v : ν} (h : d.get? k = some v) :
    (v :: (d.erase k).values).Subperm d.values := by
  obtain ⟨es, hes⟩ := d
  simp only [erase, values, get?] at h ⊢
  clear hes
  induction es with
  | nil => simp at h
  | cons e rest ih =>
    by_cases he : e.1 = k
    · obtain rfl : e.2 = v := by simpa [he] using h
      simp only [List.filter_cons, he, ne_eq, not_true_eq_false, decide_false]
      exact ((List.filter_sublist.map Prod.snd).cons_cons e.2).subperm
    · have h : (rest.find? fun e => e.1 = k).map Prod.snd = some v := by simpa [he] using h
      simp only [List.filter_cons, he, ne_eq, not_false_eq_true, decide_true, if_true,
        List.map_cons]
      exact (List.Perm.swap e.2 v _).subperm.trans ((List.subperm_cons e.2).mpr (ih h))

theorem mem_values_of_get? {d : Dict κ ν} {k : κ} {v : ν} (h : d.get? k = some v) : v ∈ d.values :=
  List.mem_map_of_mem (mem_entries_iff.mpr h)

theorem values_erase_sublist (d : Dict κ ν) (k : κ) : (d.erase k).values.Sublist d.values :=
  List.filter_sublist.map Prod.snd

omit [DecidableEq κ] in
theorem values_filter_sublist (d : Dict κ ν) (p : κ × ν → Bool) :
    (d.filter p).values.Sublist d.values :=
  List.filter_sublist.map Prod.snd

/-! ## Sums -/

/-- What the entries weigh together. -/
def weigh (g : κ → ν → ℕ) (d : Dict κ ν) : ℕ := (d.entries.map fun e => g e.1 e.2).sum

/-- A write takes the weight of the entry that it replaces, and adds its own. -/
theorem weigh_insert (g : κ → ν → ℕ) (d : Dict κ ν) (k : κ) (v : ν) :
    (d.insert k v).weigh g + (d.get? k).elim 0 (g k) = d.weigh g + g k v := by
  obtain ⟨es, hes⟩ := d
  simp only [insert, weigh, get?]
  clear hes
  induction es with
  | nil => simp [insertEntries]
  | cons e rest ih =>
    by_cases he : e.1 = k
    · subst he
      simp [insertEntries]
      omega
    · rw [insertEntries, if_neg he, List.find?_cons_of_neg (by simpa using he), List.map_cons,
        List.map_cons, List.sum_cons, List.sum_cons]
      omega

/-- A removal takes the weight of its entry. -/
theorem weigh_erase (g : κ → ν → ℕ) (d : Dict κ ν) (k : κ) :
    (d.erase k).weigh g + (d.get? k).elim 0 (g k) = d.weigh g := by
  obtain ⟨es, hes⟩ := d
  simp only [erase, weigh, get?]
  induction es with
  | nil => rfl
  | cons e rest ih =>
    obtain ⟨hnew, hrest⟩ := List.nodup_cons.mp hes
    by_cases he : e.1 = k
    · -- no other entry has the key
      subst he
      have hothers : rest.filter (fun e' => !decide (e'.1 = e.1)) = rest := by
        refine List.filter_eq_self.mpr fun e' he' => ?_
        rw [Bool.not_eq_true', decide_eq_false_iff_not]
        intro heq
        exact hnew (heq ▸ List.mem_map_of_mem he')
      simp [hothers]
      omega
    · have hrest := ih hrest
      rw [List.filter_cons, if_pos (by simpa using he), List.find?_cons_of_neg (by simpa using he),
        List.map_cons, List.map_cons, List.sum_cons, List.sum_cons]
      omega

omit [DecidableEq κ] in
theorem weigh_le {g h : κ → ν → ℕ} {d : Dict κ ν} (hle : ∀ e ∈ d.entries, g e.1 e.2 ≤ h e.1 e.2) :
    d.weigh g ≤ d.weigh h := by
  obtain ⟨es, hes⟩ := d
  simp only [weigh] at hle ⊢
  clear hes
  induction es with
  | nil => exact Nat.le_refl 0
  | cons e rest ih =>
    have hrest := ih fun e' he' => hle e' (List.mem_cons_of_mem _ he')
    have he := hle e List.mem_cons_self
    rw [List.map_cons, List.map_cons, List.sum_cons, List.sum_cons]
    omega

omit [DecidableEq κ] in
theorem weigh_add (g h : κ → ν → ℕ) (d : Dict κ ν) :
    d.weigh (fun k v => g k v + h k v) = d.weigh g + d.weigh h := by
  obtain ⟨es, hes⟩ := d
  simp only [weigh]
  clear hes
  induction es with
  | nil => rfl
  | cons e rest ih =>
    simp only [List.map_cons, List.sum_cons]
    omega

omit [DecidableEq κ] in
theorem weigh_filter (g : κ → ν → ℕ) (p : κ × ν → Bool) (d : Dict κ ν) :
    (d.filter p).weigh g = d.weigh fun k v => if p (k, v) then g k v else 0 := by
  obtain ⟨es, hes⟩ := d
  simp only [weigh, filter]
  clear hes
  induction es with
  | nil => rfl
  | cons e rest ih =>
    rw [List.filter_cons, List.map_cons, List.sum_cons, ← ih]
    split_ifs with hp
    · rw [List.map_cons, List.sum_cons]
    · exact (Nat.zero_add _).symm

/-- The weight of some keys. -/
theorem sum_map_keys (g : κ → ν → ℕ) {d : Dict κ ν} {ks : List κ} (hnodup : ks.Nodup)
    (hkeys : ∀ k ∈ ks, k ∈ d.keys) :
    (ks.map fun k => (d.get? k).elim 0 (g k)).sum = d.weigh fun k v => if k ∈ ks then g k v else 0 := by
  have hperm : ks.Perm (d.keys.filter (· ∈ ks)) := by
    refine (List.perm_ext_iff_of_nodup hnodup (d.nodup.filter _)).mpr fun k => ?_
    rw [List.mem_filter, decide_eq_true_eq]
    exact ⟨fun hk => ⟨hkeys k hk, hk⟩, And.right⟩
  have hlookup : ∀ e ∈ d.entries, (d.get? e.1).elim 0 (g e.1) = g e.1 e.2 := by
    intro e he
    rw [mem_entries_iff.mp he]
    rfl
  rw [(hperm.map _).sum_nat, keys, List.filter_map, List.map_map, weigh]
  generalize d.entries = es at hlookup
  induction es with
  | nil => rfl
  | cons e rest ih =>
    have hrest := ih fun e' he' => hlookup e' (List.mem_cons_of_mem _ he')
    rw [List.filter_cons, List.map_cons, List.sum_cons, ← hrest]
    by_cases hmem : e.1 ∈ ks
    · rw [if_pos hmem, if_pos (by simpa using hmem), List.map_cons, List.sum_cons]
      exact congrArg (· + _) (hlookup e List.mem_cons_self)
    · rw [if_neg hmem, if_neg (by simpa using hmem), Nat.zero_add]

end Dict
