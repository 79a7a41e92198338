import Mathlib.Data.Option.Basic
import Mathlib.Tactic.Common

/-!
# Transactions of a connection

A connection to a store has at most one transaction open. Outside of one, each
change is stored at once; inside, the changes are pending until they are
committed or taken back. Changes may fail, and a change that fails leaves the
connection as it is.

* `Statement.exec`, `execAll` — statements, one by one;
* `keptOf` — the changes of a script that are stored when it breaks off: those
  outside of its transactions, and those that it has committed itself;
* `stored_execAll` — exactly these have been applied to the store;
* `exec_lift` — statements about a part of the store.
-/

/-- What is stored and, in a transaction, what the connection sees instead. -/
structure Connection (σ : Type) where
  stored  : σ
  pending : Option σ

namespace Connection

variable {σ τ : Type}

def opened (s : σ) : Connection σ := ⟨s, none⟩

def view (c : Connection σ) : σ := c.pending.getD c.stored

/-- Opens a transaction, unless one is open. -/
def join (c : Connection σ) : Connection σ := ⟨c.stored, some c.view⟩

def commit (c : Connection σ) : Connection σ := opened c.view

def rollback (c : Connection σ) : Connection σ := opened c.stored

def write (c : Connection σ) (s : σ) : Connection σ :=
  match c.pending with
  | some _ => ⟨c.stored, some s⟩
  | none => opened s

def map (g : σ → τ) (c : Connection σ) : Connection τ := ⟨g c.stored, c.pending.map g⟩

@[simp] theorem view_opened (s : σ) : (opened s).view = s := rfl

@[simp] theorem view_join (c : Connection σ) : c.join.view = c.view := rfl

@[simp] theorem commit_opened (s : σ) : (opened s).commit = opened s := rfl

theorem view_map (g : σ → τ) (c : Connection σ) : (c.map g).view = g c.view := by
  unfold view map
  cases c.pending with
  | none => rfl
  | some s => rfl

theorem write_map (g : σ → τ) (c : Connection σ) (s : σ) :
    (c.map g).write (g s) = (c.write s).map g := by
  unfold write map
  cases c.pending with
  | none => rfl
  | some s => rfl

end Connection

/-! ## Statements -/

inductive Statement (σ : Type)
  | change (f : σ → Option σ)
  | begin
  | commit
  | rollback

namespace Statement

open Connection

variable {σ τ : Type}

/-- Transactions do not nest, and only an open one can be closed. -/
def exec : Statement σ → Connection σ → Option (Connection σ)
  | change f, c => (f c.view).map c.write
  | begin, c =>
    match c.pending with
    | some _ => none
    | none => some c.join
  | commit, c => c.pending.map fun _ => c.commit
  | rollback, c => c.pending.map fun _ => c.rollback

/-- The statement about a larger store. -/
def lift (g : (σ → Option σ) → τ → Option τ) : Statement σ → Statement τ
  | change f => change (g f)
  | begin => begin
  | commit => commit
  | rollback => rollback

theorem exec_lift {g : σ → τ} {l : (σ → Option σ) → τ → Option τ}
    (hl : ∀ f s, l f (g s) = (f s).map g) (s : Statement σ) (c : Connection σ) :
    (s.lift l).exec (c.map g) = (s.exec c).map (Connection.map g) := by
  -- one case a statement; only a change reads the state it maps
  cases s with
  | change f =>
    simp only [lift, exec, view_map, hl, Option.map_map]
    congr 1
    funext s
    exact write_map g c s
  | begin =>
    -- a begin inside of a transaction fails on both sides
    simp only [lift, exec, Connection.map]
    cases hpending : c.pending with
    | none =>
      simp only [Option.map_none, Option.map_some, join, view, hpending, Option.getD_none,
        Connection.map]
    | some s => rfl
  | commit =>
    simp only [lift, exec, Option.map_map]
    -- a commit outside of a transaction leaves the connection
    cases hpending : c.pending with
    | none => simp [Connection.map, hpending]
    | some s =>
      simp only [Connection.map, hpending, Option.map_some, Connection.commit, opened, view,
        Option.getD_some, Function.comp_apply, Option.map_none]
  | rollback =>
    simp only [lift, exec, Option.map_map]
    cases hpending : c.pending with
    | none => simp [Connection.map, hpending]
    | some s =>
      simp only [Connection.map, hpending, Option.map_some, Connection.rollback, opened,
        Function.comp_apply, Option.map_none]

end Statement

/-! ## Scripts -/

section

open Connection Statement

variable {σ τ : Type}

def execAll (script : List (Statement σ)) (c : Connection σ) : Option (Connection σ) :=
  script.foldlM (fun c s => s.exec c) c

/-- One change after the other. -/
def applyAll (changes : List (σ → Option σ)) (s : σ) : Option σ :=
  changes.foldlM (fun s f => f s) s

theorem execAll_cons (s : Statement σ) (script : List (Statement σ)) (c : Connection σ) :
    execAll (s :: script) c = (s.exec c).bind (execAll script) := List.foldlM_cons ..

theorem execAll_append (script rest : List (Statement σ)) (c : Connection σ) :
    execAll (script ++ rest) c = (execAll script c).bind (execAll rest) := List.foldlM_append

theorem applyAll_append (changes more : List (σ → Option σ)) (s : σ) :
    applyAll (changes ++ more) s = (applyAll changes s).bind (applyAll more) :=
  List.foldlM_append

theorem execAll_lift {g : σ → τ} {l : (σ → Option σ) → τ → Option τ}
    (hl : ∀ f s, l f (g s) = (f s).map g) (script : List (Statement σ)) (c : Connection σ) :
    execAll (script.map (Statement.lift l)) (c.map g) =
      (execAll script c).map (Connection.map g) := by
  induction script generalizing c with
  | nil => rfl
  | cons s script ih =>
    rw [List.map_cons, execAll_cons, execAll_cons, exec_lift hl]
    cases s.exec c with
    | none => rfl
    | some c' => exact ih c'

/-- A script that is executed has had no statement fail. -/
theorem exec_ne_none {script : List (Statement σ)} {c c' c'' : Connection σ} {j : ℕ}
    {s : Statement σ} (h : execAll script c = some c'') (hs : script[j]? = some s)
    (htake : execAll (script.take j) c = some c') : s.exec c' ≠ none := by
  intro hnone
  obtain ⟨hj, hget⟩ := List.getElem?_eq_some_iff.mp hs
  have hsplit : script = script.take j ++ s :: script.drop (j + 1) := by
    rw [← hget, ← List.drop_eq_getElem_cons hj, List.take_append_drop]
  rw [hsplit, execAll_append, htake, Option.bind_some, execAll_cons, hnone] at h
  cases h

/-! ## What is kept -/

/-- The changes that are stored, and those of the open transaction. -/
structure Progress (σ : Type) where
  kept   : List (σ → Option σ)
  opened : Option (List (σ → Option σ))

def Progress.track (p : Progress σ) : Statement σ → Progress σ
  | .change f =>
    match p.opened with
    | none => { p with kept := p.kept ++ [f] }
    | some changes => { p with opened := some (changes ++ [f]) }
  | .begin => { p with opened := some [] }
  | .commit => ⟨p.kept ++ p.opened.getD [], none⟩
  | .rollback => { p with opened := none }

/-- The changes that the script has stored when it breaks off, if it begins in a transaction or
outside of one. -/
def keptOf (inTransaction : Bool) (script : List (Statement σ)) : List (σ → Option σ) :=
  (script.foldl Progress.track ⟨[], if inTransaction then some [] else none⟩).kept

/-- The connection after this progress. -/
structure Progress.Reaches (p : Progress σ) (s : σ) (c : Connection σ) : Prop where
  kept   : applyAll p.kept s = some c.stored
  opened : p.opened.map (applyAll · c.stored) = c.pending.map some

theorem Progress.Reaches.track {p : Progress σ} {s : σ} {c c' : Connection σ}
    (h : p.Reaches s c) {t : Statement σ} (hexec : t.exec c = some c') :
    (p.track t).Reaches s c' := by
  obtain ⟨hkept, hopened⟩ := h
  cases hpending : c.pending with
  -- outside of a transaction a change is stored at once
  | none =>
    rw [hpending] at hopened
    have hclosed : p.opened = none := Option.map_eq_none_iff.mp hopened
    cases t with
    | change f =>
      obtain ⟨s', hf, rfl⟩ := Option.map_eq_some_iff.mp hexec
      simp only [view, hpending, Option.getD_none] at hf
      refine ⟨?_, ?_⟩
      · simp only [Progress.track, hclosed, write, hpending]
        rw [applyAll_append, hkept, Option.bind_some]
        exact (List.foldlM_cons ..).trans (by rw [hf]; rfl)
      · simp only [Progress.track, hclosed, write, hpending]
        rfl
    | begin =>
      simp only [exec, hpending] at hexec
      obtain rfl := Option.some.inj hexec
      refine ⟨hkept, ?_⟩
      simp only [Progress.track, join, view, hpending]
      rfl
    | commit => simp [exec, hpending] at hexec
    | rollback => simp [exec, hpending] at hexec
  | some pending =>
    -- inside of one it waits for the commit, which stores all that were tracked
    rw [hpending] at hopened
    obtain ⟨changes, hchanges, hpend⟩ := Option.map_eq_some_iff.mp hopened
    cases t with
    | change f =>
      obtain ⟨s', hf, rfl⟩ := Option.map_eq_some_iff.mp hexec
      simp only [view, hpending, Option.getD_some] at hf
      refine ⟨?_, ?_⟩
      · simp only [Progress.track, hchanges, write, hpending]
        exact hkept
      · simp only [Progress.track, hchanges, write, hpending, Option.map_some]
        rw [applyAll_append, hpend, Option.bind_some]
        exact congrArg some ((List.foldlM_cons ..).trans (by rw [hf]; rfl))
    | begin => simp [exec, hpending] at hexec
    | commit =>
      simp only [exec, hpending] at hexec
      obtain rfl := Option.some.inj hexec
      refine ⟨?_, rfl⟩
      simp only [Progress.track, hchanges, Option.getD_some, Connection.commit, view, hpending]
      rw [applyAll_append, hkept]
      exact hpend
    | rollback =>
      simp only [exec, hpending] at hexec
      obtain rfl := Option.some.inj hexec
      exact ⟨hkept, rfl⟩

theorem Progress.Reaches.trackAll {script : List (Statement σ)} {p : Progress σ} {s : σ}
    {c c' : Connection σ} (h : p.Reaches s c) (hexec : execAll script c = some c') :
    (script.foldl Progress.track p).Reaches s c' := by
  induction script generalizing p c with
  | nil =>
    obtain rfl := Option.some.inj hexec
    exact h
  | cons t script ih =>
    rw [execAll_cons] at hexec
    obtain ⟨c₁, hstep, hrest⟩ := Option.bind_eq_some_iff.mp hexec
    exact ih (h.track hstep) hrest

/-- A connection that is opened, and a transaction with it. -/
def begins (inTransaction : Bool) (s : σ) : Connection σ :=
  if inTransaction then (opened s).join else opened s

/-- Stored is what the kept changes make of the store. -/
theorem stored_execAll {inTransaction : Bool} {script : List (Statement σ)} {s : σ}
    {c : Connection σ} (h : execAll script (begins inTransaction s) = some c) :
    applyAll (keptOf inTransaction script) s = some c.stored := by
  have hstart : Progress.Reaches ⟨[], if inTransaction then some [] else none⟩ s
      (begins inTransaction s) := by
    cases inTransaction with
    | true => exact ⟨rfl, rfl⟩
    | false => exact ⟨rfl, rfl⟩
  exact (hstart.trackAll h).kept

end
