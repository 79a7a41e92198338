import AnonyMus.Lib.Dict
import AnonyMus.Lib.Simulation

/-!
# Programs that answer alike

One `EStateM` program on two representations of its state: it returns the same
values, raises the same errors, and keeps the representations related.

* `Result.Alike`, `Lockstep` — two runs, and two programs, that answer alike;
* `Lockstep.bind`, `Lockstep.modify`, … — one rule for each form of a program;
* `answers_eq` — from one call to a run of calls;
* `Dict.Rel` — dictionaries with the same keys, and related values.
-/

namespace EStateM

variable {ε σ τ α β γ δ κ : Type}

/-! ## Two runs -/

/-- Both runs return related values, or both raise the same error. -/
inductive Result.Alike (R : σ → τ → Prop) (V : α → β → Prop) :
    Result ε σ α → Result ε τ β → Prop
  | ok {a b s t} (hv : V a b) (hr : R s t) : Alike R V (.ok a s) (.ok b t)
  | error {e s t} (hr : R s t) : Alike R V (.error e s) (.error e t)

/-- From related states the programs answer alike. -/
def Lockstep (R : σ → τ → Prop) (V : α → β → Prop) (x : EStateM ε σ α) (y : EStateM ε τ β) : Prop :=
  ∀ s t, R s t → (x s).Alike R V (y t)

theorem Result.Alike.state {R : σ → τ → Prop} {V : α → β → Prop} {r : Result ε σ α}
    {r' : Result ε τ β} (h : r.Alike R V r') : R r.state r'.state := by
  cases h with
  | ok hv hr => exact hr
  | error hr => exact hr

theorem Result.Alike.toExcept {R : σ → τ → Prop} {r : Result ε σ α} {r' : Result ε τ α}
    (h : r.Alike R Eq r') : r.toExcept = r'.toExcept := by
  cases h with
  | ok hv hr => rw [hv]; rfl
  | error hr => rfl

/-- The states may be related more loosely. -/
theorem Result.Alike.mono {R R' : σ → τ → Prop} {V : α → β → Prop} {r : Result ε σ α}
    {r' : Result ε τ β} (h : r.Alike R V r') (hR : ∀ s t, R s t → R' s t) : r.Alike R' V r' := by
  cases h with
  | ok hv hr => exact .ok hv (hR _ _ hr)
  | error hr => exact .error (hR _ _ hr)

section

variable {R : σ → τ → Prop} {V : α → β → Prop} {W : γ → δ → Prop}

/-- A program after a program. -/
theorem Result.Alike.bind {x : EStateM ε σ α} {y : EStateM ε τ β} {f : α → EStateM ε σ γ}
    {g : β → EStateM ε τ δ} {s : σ} {t : τ} (hxy : (x s).Alike R V (y t))
    (hfg : ∀ a b, V a b → Lockstep R W (f a) (g b)) :
    ((x >>= f) s).Alike R W ((y >>= g) t) := by
  rw [apply_bind, apply_bind]
  revert hxy
  cases x s with
  | ok a s' =>
    cases y t with
    | ok b t' =>
      rintro (⟨hv, hr⟩ | -)
      exact hfg a b hv s' t' hr
    | error e t' => rintro ⟨⟩
  | error e s' =>
    cases y t with
    | ok b t' => rintro ⟨⟩
    | error e' t' =>
      rintro (- | hr)
      exact .error hr

theorem Lockstep.pure {a : α} {b : β} (h : V a b) :
    Lockstep R V (pure a : EStateM ε σ α) (pure b : EStateM ε τ β) := fun _ _ hst => .ok h hst

theorem Lockstep.throw (e : ε) :
    Lockstep R V (throw e : EStateM ε σ α) (throw e : EStateM ε τ β) := fun _ _ hst => .error hst

theorem Lockstep.bind {x : EStateM ε σ α} {y : EStateM ε τ β} {f : α → EStateM ε σ γ}
    {g : β → EStateM ε τ δ} (hxy : Lockstep R V x y)
    (hfg : ∀ a b, V a b → Lockstep R W (f a) (g b)) : Lockstep R W (x >>= f) (y >>= g) :=
  fun s t hst => (hxy s t hst).bind hfg

/-- The values of the first programs are equal. -/
theorem Lockstep.andThen {x : EStateM ε σ α} {y : EStateM ε τ α} {f : α → EStateM ε σ γ}
    {g : α → EStateM ε τ δ} (hxy : Lockstep R Eq x y) (hfg : ∀ a, Lockstep R W (f a) (g a)) :
    Lockstep R W (x >>= f) (y >>= g) := by
  refine hxy.bind ?_
  rintro a _ rfl
  exact hfg a

theorem Lockstep.modify {f : σ → σ} {g : τ → τ} (h : ∀ s t, R s t → R (f s) (g t)) :
    Lockstep R Eq (modify f : EStateM ε σ PUnit) (modify g : EStateM ε τ PUnit) :=
  fun s t hst => .ok rfl (h s t hst)

theorem Lockstep.get {f : σ → EStateM ε σ γ} {g : τ → EStateM ε τ δ}
    (h : ∀ s t, R s t → (f s s).Alike R W (g t t)) :
    Lockstep R W ((get : EStateM ε σ σ) >>= f) ((get : EStateM ε τ τ) >>= g) := h

/-- What does not depend on the state. -/
theorem Lockstep.ofExcept (x : Except ε α) :
    Lockstep R Eq (ofExcept x : EStateM ε σ α) (ofExcept x : EStateM ε τ α) := by
  intro s t hst
  cases x with
  | ok a => exact .ok rfl hst
  | error e => exact .error hst

theorem Lockstep.check {x : Except ε α} {f : α → EStateM ε σ γ} {g : α → EStateM ε τ δ}
    (h : ∀ a, Lockstep R W (f a) (g a)) :
    Lockstep R W (MonadExcept.ofExcept x >>= f) (MonadExcept.ofExcept x >>= g) :=
  (Lockstep.ofExcept x).andThen h

theorem Lockstep.ite {p : Prop} [Decidable p] {x x' : EStateM ε σ α} {y y' : EStateM ε τ β}
    (h : Lockstep R V x y) (h' : Lockstep R V x' y') :
    Lockstep R V (if p then x else x') (if p then y else y') := by
  split_ifs
  · exact h
  · exact h'

end

/-- If every call under its condition answers alike, then so do the calls of a run. -/
theorem answers_eq {R : σ → τ → Prop} {G : κ → σ → Prop} {act : κ → EStateM ε σ α}
    {act' : κ → EStateM ε τ α}
    (hstep : ∀ k s t, R s t → G k s → (act k s).Alike R Eq (act' k t)) {ks : List κ} {s : σ} {t : τ}
    (hst : R s t) (hmeet : AllMeet act G ks s) :
    R (after act ks s) (after act' ks t) ∧ ∀ done k todo, ks = done ++ k :: todo →
      (act k (after act done s)).toExcept = (act' k (after act' done t)).toExcept := by
  have hrun := run_related (O := fun _ x y => x = y)
    (fun k s t hst hk => ⟨(hstep k s t hst hk).toExcept, (hstep k s t hst hk).state⟩) hst hmeet
  exact ⟨hrun.1 ks [] (List.append_nil ks).symm, hrun.2⟩

end EStateM

/-! ## Dictionaries -/

namespace Dict

variable {κ ν μ : Type} {V : ν → μ → Prop}

/-- The same keys in the same order, with related values. -/
def Rel (V : ν → μ → Prop) (d : Dict κ ν) (d' : Dict κ μ) : Prop :=
  List.Forall₂ (fun e e' => e.1 = e'.1 ∧ V e.2 e'.2) d.entries d'.entries

theorem Rel.empty : Rel V (Dict.empty : Dict κ ν) Dict.empty := .nil

variable [DecidableEq κ] {d : Dict κ ν} {d' : Dict κ μ}

/-- Neither has the key, or both have it with related values. -/
theorem Rel.get? (h : Rel V d d') (k : κ) :
    d.get? k = none ∧ d'.get? k = none ∨
      ∃ v w, d.get? k = some v ∧ d'.get? k = some w ∧ V v w := by
  obtain ⟨es, hes⟩ := d
  obtain ⟨es', hes'⟩ := d'
  unfold Rel at h
  dsimp only [Dict.get?] at h ⊢
  clear hes hes'
  induction h with
  | nil => exact .inl ⟨rfl, rfl⟩
  | @cons e e' rest rest' he hrest ih =>
    rw [List.find?_cons, List.find?_cons, he.1]
    by_cases hk : e'.1 = k
    · exact .inr ⟨e.2, e'.2, by simp [hk], by simp [hk], he.2⟩
    · simpa [hk] using ih

theorem Rel.insert (h : Rel V d d') (k : κ) {v : ν} {w : μ} (hv : V v w) :
    Rel V (d.insert k v) (d'.insert k w) := by
  unfold Rel Dict.insert at *
  dsimp only
  generalize d.entries = es, d'.entries = es' at h
  induction h with
  | nil => exact .cons ⟨rfl, hv⟩ .nil
  | @cons e e' rest rest' he hrest ih =>
    rw [insertEntries, insertEntries, he.1]
    split_ifs
    · exact .cons ⟨rfl, hv⟩ hrest
    · exact .cons he ih

theorem Rel.erase (h : Rel V d d') (k : κ) : Rel V (d.erase k) (d'.erase k) := by
  unfold Rel Dict.erase at *
  dsimp only
  generalize d.entries = es, d'.entries = es' at h
  induction h with
  | nil => exact .nil
  | @cons e e' rest rest' he hrest ih =>
    rw [List.filter_cons, List.filter_cons, he.1]
    split_ifs
    · exact .cons he ih
    · exact ih

end Dict
