import Mathlib.Data.List.Basic
import Mathlib.Logic.Relation

/-!
# Entries on top of entries

A log of states in which every entry has been made in some earlier state: in the
one that a holder started with, or in that of an entry before it. What a holder
has is known by its mark.

* `Mark`, `Entry`, `Grown` — the log, where each entry relates to its parent;
* `Follows` — an entry that descends from a mark;
* `Follows.trans` — a descent from a descendant;
* `Follows.related` — what every entry has to its parent, a descent has;
* `Follows.exists_change` — a descent along which a property changes has an entry
  where it does;
* `Leads` — marks of one line;
* `Distinct.state_eq` — a key tells the states of a log apart.
-/

namespace Lineage

variable {σ κ : Type}

/-- Where a state comes from. -/
inductive Mark (σ : Type)
  | start (s : σ)
  | entry (k : ℕ)

/-- A state, and what it was made in. -/
structure Entry (σ : Type) where
  parent : Mark σ
  state  : σ

def Mark.state? (log : List (Entry σ)) : Mark σ → Option σ
  | .start s => some s
  | .entry k => log[k]?.map Entry.state

/-- The mark is not of an entry that is still to come. -/
def Mark.Before (k : ℕ) : Mark σ → Prop
  | .start _ => True
  | .entry j => j < k

/-- Every entry has its parent before it, and is related to the state of the parent. -/
def Grown (R : σ → σ → Prop) (log : List (Entry σ)) : Prop :=
  ∀ (k : ℕ) (e : Entry σ), log[k]? = some e → e.parent.Before k ∧ ∃ s, e.parent.state? log = some s ∧ R s e.state

/-- The entry `k` has been made in the state of the mark, or in one that descends from it. -/
inductive Follows (log : List (Entry σ)) (a : Mark σ) : ℕ → Prop
  | next {k : ℕ} {e : Entry σ} (he : log[k]? = some e) (hparent : e.parent = a) : Follows log a k
  | step {j k : ℕ} {e : Entry σ} (hj : Follows log a j) (he : log[k]? = some e) (hparent : e.parent = .entry j) :
      Follows log a k

section

variable {log : List (Entry σ)} {R : σ → σ → Prop} {a : Mark σ} {s t : σ} {k : ℕ} {e : Entry σ}

theorem getElem?_of_append (log' : List (Entry σ)) (h : log[k]? = some e) :
    (log ++ log')[k]? = some e := by
  obtain ⟨hk, rfl⟩ := List.getElem?_eq_some_iff.mp h
  exact (List.getElem?_append_left hk).trans h

/-- An entry of a log with a new one is an old one, or the new one. -/
theorem getElem?_append_new {new : Entry σ} (h : (log ++ [new])[k]? = some e) :
    log[k]? = some e ∨ k = log.length ∧ e = new := by
  rcases Nat.lt_or_ge k log.length with hlt | hge
  · rw [List.getElem?_append_left hlt] at h
    exact .inl h
  · have hk : k = log.length := by
      have hbound := (List.getElem?_eq_some_iff.mp h).1
      rw [List.length_append, List.length_singleton] at hbound
      omega
    subst hk
    rw [List.getElem?_append_right (Nat.le_refl _), Nat.sub_self] at h
    exact .inr ⟨rfl, (Option.some.inj h).symm⟩

theorem Mark.state?_append (log' : List (Entry σ)) (h : a.state? log = some s) :
    a.state? (log ++ log') = some s := by
  rcases a with s₀ | k
  · exact h
  · obtain ⟨e, he, rfl⟩ := Option.map_eq_some_iff.mp h
    show (log ++ log')[k]?.map Entry.state = some e.state
    rw [getElem?_of_append log' he]
    rfl

/-- What descends still does in a longer log. -/
theorem Follows.append (log' : List (Entry σ)) (h : Follows log a k) :
    Follows (log ++ log') a k := by
  induction h with
  | next he hparent => exact .next (getElem?_of_append log' he) hparent
  | step _ he hparent ih => exact .step ih (getElem?_of_append log' he) hparent

theorem grown_nil : Grown R ([] : List (Entry σ)) := by
  intro k e he
  cases he

/-- A new entry in a state that is known. -/
theorem Grown.append (h : Grown R log) (ha : a.Before log.length) (hs : a.state? log = some s)
    (hR : R s t) : Grown R (log ++ [⟨a, t⟩]) := by
  intro k e he
  rcases getElem?_append_new he with he | ⟨rfl, rfl⟩
  · obtain ⟨hbefore, s', hs', hR'⟩ := h k e he
    exact ⟨hbefore, s', Mark.state?_append _ hs', hR'⟩
  · exact ⟨ha, s, Mark.state?_append _ hs, hR⟩

/-- An entry comes after the mark that it follows. -/
theorem Follows.before (h : Follows log a k) (hgrown : Grown R log) : a.Before k := by
  induction h with
  | next he hparent =>
    subst hparent
    exact (hgrown _ _ he).1
  | step _ he hparent ih =>
    have hlt := (hgrown _ _ he).1
    rw [hparent] at hlt
    rcases a with s₀ | i
    · trivial
    · exact Nat.lt_trans ih hlt

/-- What descends from an entry descends from what that entry descends from. -/
theorem Follows.trans {j : ℕ} (h : Follows log a j) (h' : Follows log (.entry j) k) :
    Follows log a k := by
  induction h' with
  | next he hparent => exact .step h he hparent
  | step _ he hparent ih => exact .step ih he hparent

/-- What every entry has to its parent, and composes, an entry has to the marks that it follows. -/
theorem Follows.related {T : σ → σ → Prop} [IsTrans σ T] (h : Follows log a k)
    (hgrown : Grown R log) (hT : ∀ s t, R s t → T s t) (hs : a.state? log = some s)
    (he : log[k]? = some e) : T s e.state := by
  induction h generalizing e with
  | next he' hparent =>
    obtain rfl := Option.some.inj (he'.symm.trans he)
    subst hparent
    obtain ⟨-, s', hs', hR⟩ := hgrown _ _ he
    obtain rfl := Option.some.inj (hs.symm.trans hs')
    exact hT _ _ hR
  | step hj he' hparent ih =>
    obtain rfl := Option.some.inj (he'.symm.trans he)
    obtain ⟨-, s', hs', hR⟩ := hgrown _ _ he
    rw [hparent] at hs'
    obtain ⟨e', he'', rfl⟩ := Option.map_eq_some_iff.mp hs'
    exact trans_of T (ih he'') (hT _ _ hR)

/-- On the way from a state without a property to one with it, one entry gets it. -/
theorem Follows.exists_change {P : σ → Prop} (h : Follows log a k) (hgrown : Grown R log)
    (hs : a.state? log = some s) (hnot : ¬ P s) (he : log[k]? = some e) (hP : P e.state) :
    ∃ j e' s', a.Before j ∧ log[j]? = some e' ∧ R s' e'.state ∧ ¬ P s' ∧ P e'.state := by
  induction h generalizing e with
  | next he' hparent =>
    obtain rfl := Option.some.inj (he'.symm.trans he)
    subst hparent
    obtain ⟨hbefore, s', hs', hR⟩ := hgrown _ _ he
    obtain rfl := Option.some.inj (hs.symm.trans hs')
    exact ⟨_, _, s, hbefore, he, hR, hnot, hP⟩
  | @step j k e' hj he' hparent ih =>
    obtain rfl := Option.some.inj (he'.symm.trans he)
    obtain ⟨-, s', hs', hR⟩ := hgrown _ _ he
    rw [hparent] at hs'
    obtain ⟨e'', he'', rfl⟩ := Option.map_eq_some_iff.mp hs'
    by_cases hparentP : P e''.state
    · exact ih he'' hparentP
    · exact ⟨k, _, _, (Follows.step hj he' hparent).before hgrown, he, hR, hparentP, hP⟩

/-- The mark is the other one, or of an entry that descends from it. -/
def Leads (log : List (Entry σ)) (a b : Mark σ) : Prop := b = a ∨ ∃ k, b = .entry k ∧ Follows log a k

theorem Leads.append {b : Mark σ} (log' : List (Entry σ)) (h : Leads log a b) :
    Leads (log ++ log') a b := by
  rcases h with rfl | ⟨k, rfl, hfollows⟩
  · exact .inl rfl
  · exact .inr ⟨k, rfl, hfollows.append log'⟩

theorem Leads.trans {b c : Mark σ} (h : Leads log a b) (h' : Leads log b c) : Leads log a c := by
  rcases h with rfl | ⟨j, rfl, hfollows⟩
  · exact h'
  · rcases h' with rfl | ⟨k, rfl, hfollows'⟩
    · exact .inr ⟨j, rfl, hfollows⟩
    · exact .inr ⟨k, rfl, hfollows.trans hfollows'⟩

/-- A new entry that is made at a mark. -/
theorem leads_append_new (log : List (Entry σ)) (a : Mark σ) (t : σ) :
    Leads (log ++ [⟨a, t⟩]) a (.entry log.length) := by
  refine .inr ⟨_, rfl, .next (e := ⟨a, t⟩) ?_ rfl⟩
  rw [List.getElem?_append_right (Nat.le_refl _), Nat.sub_self]
  rfl

/-! ## Entries told apart by a key -/

/-- No two entries have one key, and no entry has the key of the state that all have started with. -/
structure Distinct (key : σ → κ) (s₀ : σ) (log : List (Entry σ)) : Prop where
  entries : ∀ (j k : ℕ) (e e' : Entry σ), log[j]? = some e → log[k]? = some e' →
    key e.state = key e'.state → j = k
  first   : ∀ (k : ℕ) (e : Entry σ), log[k]? = some e → key e.state ≠ key s₀

theorem Distinct.append {key : σ → κ} {s₀ : σ} (h : Distinct key s₀ log)
    (hnew : ∀ (k : ℕ) (e : Entry σ), log[k]? = some e → key e.state ≠ key t)
    (hfirst : key t ≠ key s₀) : Distinct key s₀ (log ++ [⟨a, t⟩]) := by
  constructor
  · intro j k e e' he he' hkey
    rcases getElem?_append_new he with he | ⟨rfl, rfl⟩
    · rcases getElem?_append_new he' with he' | ⟨rfl, rfl⟩
      · exact h.entries j k e e' he he' hkey
      · exact absurd hkey (hnew j e he)
    · rcases getElem?_append_new he' with he' | ⟨rfl, rfl⟩
      · exact absurd hkey.symm (hnew k e' he')
      · rfl
  · intro k e he
    rcases getElem?_append_new he with he | ⟨rfl, rfl⟩
    · exact h.first k e he
    · exact hfirst

/-- Marks that are of the first state or of an entry have one state if the states have one key. -/
theorem Distinct.state_eq {key : σ → κ} {s₀ : σ} {b : Mark σ} (h : Distinct key s₀ log)
    (ha : a.state? log = some s) (hb : b.state? log = some t) (hstart : ∀ s', a = .start s' → s' = s₀)
    (hstart' : ∀ s', b = .start s' → s' = s₀) (hkey : key s = key t) : s = t := by
  rcases a with s' | j
  · obtain rfl := Option.some.inj ha
    rcases b with t' | k
    · obtain rfl := Option.some.inj hb
      rw [hstart s' rfl, hstart' t' rfl]
    · obtain ⟨e, he, rfl⟩ := Option.map_eq_some_iff.mp hb
      rw [hstart s' rfl] at hkey
      exact absurd hkey.symm (h.first k e he)
  · obtain ⟨e, he, rfl⟩ := Option.map_eq_some_iff.mp ha
    rcases b with t' | k
    · obtain rfl := Option.some.inj hb
      rw [hstart' t' rfl] at hkey
      exact absurd hkey (h.first j e he)
    · obtain ⟨e', he', rfl⟩ := Option.map_eq_some_iff.mp hb
      obtain rfl := h.entries j k e e' he he' hkey
      rw [Option.some.inj (he.symm.trans he')]

end

end Lineage
