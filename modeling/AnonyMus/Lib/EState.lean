import Mathlib.Logic.Basic

/-!
# State-keeping exceptions, pointwise

`EStateM ε σ` is a state transformer whose failures keep the state reached so
far: the meaning of a method that mutates its object and may raise halfway.

* the `apply_*` lemmas apply each primitive to a state, so that a program is
  run by `simp`;
* `Preserves`, `Keeps` — what an action does not break or change, with a rule for
  each primitive;
* `outcomes_genuine` — calls that leave the state alone can be struck from a
  run without changing what the others return.
-/

namespace EStateM

variable {ε σ α β : Type}

@[simp] theorem apply_bind (x : EStateM ε σ α) (f : α → EStateM ε σ β) (s : σ) :
    (x >>= f) s = match x s with
      | .ok a s' => f a s'
      | .error e s' => .error e s' := rfl

@[simp] theorem apply_pure (a : α) (s : σ) : (pure a : EStateM ε σ α) s = .ok a s := rfl

@[simp] theorem apply_get (s : σ) : (get : EStateM ε σ σ) s = .ok s s := rfl

@[simp] theorem apply_set (s s' : σ) : (set s' : EStateM ε σ PUnit) s = .ok ⟨⟩ s' := rfl

@[simp] theorem apply_modify (f : σ → σ) (s : σ) :
    (modify f : EStateM ε σ PUnit) s = .ok ⟨⟩ (f s) := rfl

@[simp] theorem apply_throw (e : ε) (s : σ) :
    (throw e : EStateM ε σ α) s = .error e s := rfl

@[simp] theorem apply_ofExcept_ok (a : α) (s : σ) :
    (ofExcept (.ok a : Except ε α) : EStateM ε σ α) s = .ok a s := rfl

@[simp] theorem apply_ofExcept_error (e : ε) (s : σ) :
    (ofExcept (.error e : Except ε α) : EStateM ε σ α) s = .error e s := rfl

/-- Lifting a pure computation leaves the state alone. -/
theorem apply_ofExcept (x : Except ε α) (s : σ) :
    (ofExcept x : EStateM ε σ α) s = match x with
      | .ok a => .ok a s
      | .error e => .error e s := by
  cases x <;> rfl

/-- A handler begins in the state that the failure has left. -/
theorem apply_tryCatch (x : EStateM ε σ α) (handler : ε → EStateM ε σ α) (s : σ) :
    (tryCatch x handler : EStateM ε σ α) s = match x s with
      | .ok a s' => .ok a s'
      | .error e s' => handler e s' := by
  show EStateM.tryCatch x handler s = _
  unfold EStateM.tryCatch
  cases x s <;> rfl

theorem eq_of_ofExcept {x : Except ε α} {s s' : σ} {a : α}
    (h : (ofExcept x : EStateM ε σ α) s = .ok a s') : s' = s := by
  rw [apply_ofExcept] at h
  cases x with
  | error e => cases h
  | ok a =>
    cases h
    rfl

theorem except_ok_bind (a : α) (f : α → Except ε β) : ((.ok a : Except ε α) >>= f) = f a := rfl

/-- A pure computation returns what its last part returns, when all parts return. -/
theorem except_bind_eq_ok_iff {x : Except ε α} {f : α → Except ε β} {b : β} :
    (x >>= f) = .ok b ↔ ∃ a, x = .ok a ∧ f a = .ok b := by
  cases x with
  | error e => exact iff_of_false (by rintro ⟨⟩) (by rintro ⟨a, ⟨⟩, -⟩)
  | ok a =>
    constructor
    · intro h
      exact ⟨a, rfl, h⟩
    · rintro ⟨a', ha, h⟩
      rw [Except.ok.inj ha]
      exact h

/-- The state a run ends in, failed or not. -/
def Result.state : Result ε σ α → σ
  | .ok _ s => s
  | .error _ s => s

@[simp] theorem Result.state_ok (a : α) (s : σ) : (Result.ok a s : Result ε σ α).state = s := rfl

@[simp] theorem Result.state_error (e : ε) (s : σ) :
    (Result.error e s : Result ε σ α).state = s := rfl

/-- The value a run returns, if it does. -/
def Result.value? : Result ε σ α → Option α
  | .ok a _ => some a
  | .error _ _ => none

/-- The result of a run without its state. -/
def Result.toExcept : Result ε σ α → Except ε α
  | .ok a _ => .ok a
  | .error e _ => .error e

theorem state_map (f : α → β) (x : EStateM ε σ α) (s : σ) :
    ((f <$> x) s).state = (x s).state := by
  change (match x s with
    | .ok a s' => Result.ok (f a) s'
    | .error e s' => .error e s').state = _
  cases x s <;> rfl

/-- An action that returns has returned from each of its parts. -/
theorem ok_of_bind {x : EStateM ε σ α} {f : α → EStateM ε σ β} {s s' : σ} {b : β}
    (h : (x >>= f) s = .ok b s') : ∃ a s₁, x s = .ok a s₁ ∧ f a s₁ = .ok b s' := by
  rw [apply_bind] at h
  rcases hx : x s with ⟨a, s₁⟩ | ⟨e, s₁⟩
  · rw [hx] at h
    exact ⟨a, s₁, rfl, h⟩
  · rw [hx] at h
    cases h

/-- What a call returns does not matter to the state it leaves. -/
theorem state_discard (x : EStateM ε σ α) (b : β) (s : σ) :
    ((x >>= fun _ => pure b) s).state = (x s).state := by
  rw [apply_bind]
  cases x s <;> rfl

/-! ## Invariants and frames -/

/-- The action leads from states with `I` to states with `I`, failing or not. -/
def Preserves (I : σ → Prop) (x : EStateM ε σ α) : Prop := ∀ s, I s → I (x s).state

/-- The action does not change what `g` reads. -/
def Keeps {γ : Type} (g : σ → γ) (x : EStateM ε σ α) : Prop := ∀ s, g (x s).state = g s

section

variable {γ : Type} {I : σ → Prop} {g : σ → γ}

theorem state_bind (x : EStateM ε σ α) (f : α → EStateM ε σ β) (s : σ) :
    ((x >>= f) s).state = (x s).state ∨ ∃ a, ((x >>= f) s).state = (f a (x s).state).state := by
  rw [apply_bind]
  cases x s with
  | ok a s' => exact .inr ⟨a, rfl⟩
  | error e s' => exact .inl rfl

theorem Preserves.bind {x : EStateM ε σ α} {f : α → EStateM ε σ β} (hx : Preserves I x)
    (hf : ∀ a, Preserves I (f a)) : Preserves I (x >>= f) := by
  intro s hs
  rcases state_bind x f s with h | ⟨a, h⟩
  · rw [h]
    exact hx s hs
  · rw [h]
    exact hf a _ (hx s hs)

theorem Preserves.pure (a : α) : Preserves I (pure a : EStateM ε σ α) := fun _ hs => hs

theorem Preserves.throw (e : ε) : Preserves I (throw e : EStateM ε σ α) := fun _ hs => hs

theorem Preserves.modify {f : σ → σ} (hf : ∀ s, I s → I (f s)) :
    Preserves I (modify f : EStateM ε σ PUnit) := hf

theorem Preserves.ofExcept (x : Except ε α) : Preserves I (ofExcept x : EStateM ε σ α) := by
  intro s hs
  rw [apply_ofExcept]
  cases x with
  | error e => exact hs
  | ok a => exact hs

theorem Preserves.check {x : Except ε α} {f : α → EStateM ε σ β} (h : ∀ a, Preserves I (f a)) :
    Preserves I (MonadExcept.ofExcept x >>= f) :=
  (Preserves.ofExcept x).bind h

/-- What comes after reading the state may rely on what it has read. -/
theorem Preserves.get {f : σ → EStateM ε σ α} (hf : ∀ s, I s → I (f s s).state) :
    Preserves I (get >>= f) := hf

/-- Dropping what an action returns. -/
theorem Preserves.discard {x : EStateM ε σ α} (hx : Preserves I x) : Preserves I (discard x) := by
  intro s hs
  show I ((Function.const α PUnit.unit <$> x) s).state
  rw [state_map]
  exact hx s hs

theorem Keeps.bind {x : EStateM ε σ α} {f : α → EStateM ε σ β} (hx : Keeps g x)
    (hf : ∀ a, Keeps g (f a)) : Keeps g (x >>= f) := by
  intro s
  rcases state_bind x f s with h | ⟨a, h⟩
  · rw [h, hx s]
  · rw [h, hf a, hx s]

theorem Keeps.pure (a : α) : Keeps g (pure a : EStateM ε σ α) := fun _ => rfl

theorem Keeps.throw (e : ε) : Keeps g (throw e : EStateM ε σ α) := fun _ => rfl

theorem Keeps.modify {f : σ → σ} (hf : ∀ s, g (f s) = g s) :
    Keeps g (modify f : EStateM ε σ PUnit) := hf

theorem Keeps.get {f : σ → EStateM ε σ α} (hf : ∀ s, g (f s s).state = g s) :
    Keeps g (get >>= f) := hf

theorem Keeps.ofExcept (x : Except ε α) : Keeps g (ofExcept x : EStateM ε σ α) := by
  intro s
  rw [apply_ofExcept]
  cases x with
  | error e => rfl
  | ok a => rfl

theorem Keeps.ite {p : Prop} [Decidable p] {x y : EStateM ε σ α} (hx : Keeps g x)
    (hy : Keeps g y) : Keeps g (if p then x else y) := by
  split
  · exact hx
  · exact hy

/-- Dropping what an action returns. -/
theorem Keeps.discard {x : EStateM ε σ α} (hx : Keeps g x) : Keeps g (discard x) := by
  intro s
  show g ((Function.const α PUnit.unit <$> x) s).state = g s
  rw [state_map, hx s]

end

/-! ## Runs with intruding calls -/

/-- One call of a run, made by the parties or by an intruder. -/
inductive Event (α : Type)
  | genuine (a : α)
  | forged (a : α)

variable (act : α → EStateM ε σ β)

/-- What the genuine calls of a run return. -/
def outcomes : List (Event α) → σ → List (Except ε β)
  | [], _ => []
  | .genuine a :: es, s => (act a s).toExcept :: outcomes es (act a s).state
  | .forged a :: es, s => outcomes es (act a s).state

/-- Every forged call of the run satisfies `R` in the state it meets. -/
def ForgedMeet (R : α → σ → Prop) : List (Event α) → σ → Prop
  | [], _ => True
  | .genuine a :: es, s => ForgedMeet R es (act a s).state
  | .forged a :: es, s => R a s ∧ ForgedMeet R es (act a s).state

/-- The run without its forged calls. -/
def genuineCalls : List (Event α) → List (Event α)
  | [] => []
  | .genuine a :: es => .genuine a :: genuineCalls es
  | .forged _ :: es => genuineCalls es

theorem outcomes_genuine {R : α → σ → Prop} (hR : ∀ a s, R a s → (act a s).state = s)
    {es : List (Event α)} {s : σ} (h : ForgedMeet act R es s) :
    outcomes act es s = outcomes act (genuineCalls es) s := by
  induction es generalizing s with
  | nil => rfl
  | cons e es ih =>
    cases e with
    | genuine a => rw [outcomes, genuineCalls, outcomes, ih h]
    | forged a => rw [outcomes, genuineCalls, hR a s h.1, ih (hR a s h.1 ▸ h.2)]

end EStateM
