import Mathlib.Data.List.Induction
import AnonyMus.Lib.EState

/-!
# Two programs in lockstep

Rules for a pair of `EStateM` programs that are meant to do the same on two
representations of one state: a method and its port to another language.

* `Result.Rel` — two runs end alike;
* `Result.Rel.bind` — a call after a call;
* `allMeet_iff`, `AllMeet.invariant` — a condition on every call of a run;
* `states_and_allMeet_iff` — the condition under which calls keep an invariant;
* `AtMostOne` — a condition that no two calls of a run meet;
* `run_related` — from one call to a run of calls, each under a condition on the
  state it meets;
* `pairwise_outputs_iff` — what the calls of a run put out.
-/

namespace EStateM

variable {ε δ σ τ α β γ κ : Type}

/-! ## Runs that end alike -/

/-- Both runs return related values, or both raise, and they leave related states. -/
inductive Result.Rel (R : σ → τ → Prop) (V : α → β → Prop) :
    Result ε σ α → Result δ τ β → Prop
  | ok {a b s t} (hv : V a b) (hr : R s t) : Rel R V (.ok a s) (.ok b t)
  | error {e e' s t} (hr : R s t) : Rel R V (.error e s) (.error e' t)

namespace Result.Rel

variable {R R' : σ → τ → Prop} {V : α → β → Prop}

/-- A call after a call: what comes second may rely on a stronger relation. -/
theorem bind {x : EStateM ε σ α} {y : EStateM δ τ β} {f : α → EStateM ε σ γ}
    {g : β → EStateM δ τ κ} {W : γ → κ → Prop} {s : σ} {t : τ} (hxy : (x s).Rel R V (y t))
    (hR : ∀ s t, R s t → R' s t)
    (hfg : ∀ a b s t, V a b → R s t → (f a s).Rel R' W (g b t)) :
    ((x >>= f) s).Rel R' W ((y >>= g) t) := by
  rw [apply_bind, apply_bind]
  revert hxy
  cases x s with
  | ok a s' =>
    cases y t with
    | ok b t' =>
      rintro (⟨hv, hr⟩ | -)
      exact hfg a b s' t' hv hr
    | error e t' => rintro ⟨⟩
  | error e s' =>
    cases y t with
    | ok b t' => rintro ⟨⟩
    | error e' t' =>
      rintro (- | hr)
      exact .error (hR s' t' hr)

end Result.Rel

/-! ## Runs of calls -/

variable (act : κ → EStateM ε σ α) (act' : κ → EStateM δ τ β)

/-- The state after the calls `ks`, whatever each of them returns. -/
def after (ks : List κ) (s : σ) : σ :=
  ks.foldl (fun s k => (act k s).state) s

@[simp] theorem after_nil (s : σ) : after act [] s = s := rfl

@[simp] theorem after_cons (k : κ) (ks : List κ) (s : σ) :
    after act (k :: ks) s = after act ks (act k s).state := rfl

/-- Every call meets a state in which its condition holds. -/
def AllMeet (G : κ → σ → Prop) : List κ → σ → Prop
  | [], _ => True
  | k :: ks, s => G k s ∧ AllMeet G ks (act k s).state

@[simp] theorem after_append (ks ks' : List κ) (s : σ) :
    after act (ks ++ ks') s = after act ks' (after act ks s) := List.foldl_append

theorem allMeet_append {G : κ → σ → Prop} {ks ks' : List κ} {s : σ} :
    AllMeet act G (ks ++ ks') s ↔ AllMeet act G ks s ∧ AllMeet act G ks' (after act ks s) := by
  induction ks generalizing s with
  | nil => simp [AllMeet]
  | cons k ks ih => rw [List.cons_append, AllMeet, AllMeet, ih, after_cons, and_assoc]

/-- A condition on every call, with the calls before it. -/
theorem allMeet_iff {G : κ → σ → Prop} {ks : List κ} {s : σ} :
    AllMeet act G ks s ↔ ∀ done k todo, ks = done ++ k :: todo → G k (after act done s) := by
  constructor
  · rintro h done k todo rfl
    exact (allMeet_append act |>.mp h).2.1
  · induction ks generalizing s with
    | nil => intro _; trivial
    | cons k ks ih =>
      intro h
      refine ⟨h [] k ks rfl, ih ?_⟩
      rintro done k' todo rfl
      exact h (k :: done) k' todo rfl

instance decidableAllMeet (G : κ → σ → Prop) [∀ k s, Decidable (G k s)] :
    ∀ ks s, Decidable (AllMeet act G ks s)
  | [], _ => .isTrue trivial
  | k :: ks, s =>
    have := decidableAllMeet G ks (act k s).state
    inferInstanceAs (Decidable (G k s ∧ AllMeet act G ks (act k s).state))

variable {act act'} {R : σ → τ → Prop} {G : κ → σ → Prop}
  {O : κ → Except ε α → Except δ β → Prop}

/-- What every call under its condition keeps, a run keeps. -/
theorem AllMeet.invariant {I : σ → Prop} (hstep : ∀ k s, I s → G k s → I (act k s).state)
    {ks : List κ} {s : σ} (hmeet : AllMeet act G ks s) (hs : I s) : I (after act ks s) := by
  induction ks generalizing s with
  | nil => exact hs
  | cons k ks ih => exact ih hmeet.2 (hstep k s hs hmeet.1)

/-- Before every call stands what all calls keep. -/
theorem after_invariant {I : σ → Prop} (hstep : ∀ k s, I s → I (act k s).state) {ks : List κ} {s : σ}
    (hs : I s) : I (after act ks s) := by
  induction ks generalizing s with
  | nil => exact hs
  | cons k ks ih => exact ih (hstep k s hs)

/-- If `F` says when a call keeps `I` and meets `G`, then it says so of a run. -/
theorem states_and_allMeet_iff {I : σ → Prop} {F : κ → σ → Prop}
    (hstep : ∀ k s, I s → (I (act k s).state ∧ G k s ↔ F k s)) {ks : List κ} {s : σ} (hs : I s) :
    (∀ done todo, ks = done ++ todo → I (after act done s)) ∧ AllMeet act G ks s ↔
      AllMeet act F ks s := by
  induction ks generalizing s with
  | nil =>
    refine iff_of_true ⟨?_, trivial⟩ trivial
    intro done todo h
    obtain ⟨rfl, -⟩ := List.append_eq_nil_iff.mp h.symm
    exact hs
  | cons k ks ih =>
    constructor
    · rintro ⟨hstates, hk, hks⟩
      have hnext : I (act k s).state := hstates [k] ks rfl
      refine ⟨(hstep k s hs).mp ⟨hnext, hk⟩, (ih hnext).mp ⟨?_, hks⟩⟩
      rintro done todo rfl
      exact hstates (k :: done) todo rfl
    · rintro ⟨hk, hks⟩
      obtain ⟨hnext, hmeet⟩ := (hstep k s hs).mpr hk
      obtain ⟨hstates, hrest⟩ := (ih hnext).mpr hks
      refine ⟨?_, hmeet, hrest⟩
      intro done todo h
      rcases done with _ | ⟨k', done⟩
      · exact hs
      · rw [List.cons_append] at h
        obtain ⟨rfl, htail⟩ := List.cons.inj h
        exact hstates done todo htail

/-- No two calls of a run meet a state in which `G` holds. -/
def AtMostOne (act : κ → EStateM ε σ α) (G : κ → σ → Prop) (ks : List κ) (s : σ) : Prop :=
  ∀ done k mid k' todo, ks = done ++ k :: (mid ++ k' :: todo) → G k (after act done s) →
    ¬ G k' (after act (done ++ k :: mid) s)

/-- If one call under its condition has a related outcome and keeps the states
related, then the states stay related throughout a run, and every call of it
has a related outcome. -/
theorem run_related
    (hstep : ∀ k s t, R s t → G k s →
      O k (act k s).toExcept (act' k t).toExcept ∧ R (act k s).state (act' k t).state)
    {ks : List κ} {s : σ} {t : τ} (hst : R s t) (hmeet : AllMeet act G ks s) :
    (∀ done todo, ks = done ++ todo → R (after act done s) (after act' done t)) ∧
      ∀ done k todo, ks = done ++ k :: todo →
        O k (act k (after act done s)).toExcept (act' k (after act' done t)).toExcept := by
  induction ks generalizing s t with
  | nil =>
    constructor
    · intro done todo h
      obtain ⟨rfl, rfl⟩ := List.append_eq_nil_iff.mp h.symm
      exact hst
    · intro done k todo h
      exact absurd h.symm (by simp)
  | cons k ks ih =>
    obtain ⟨hk, hks⟩ := hmeet
    obtain ⟨hout, hnext⟩ := hstep k s t hst hk
    obtain ⟨hstates, houts⟩ := ih hnext hks
    constructor
    · intro done todo h
      rcases done with _ | ⟨d, done⟩
      · exact hst
      · rw [List.cons_append] at h
        obtain ⟨rfl, htail⟩ := List.cons.inj h
        exact hstates done todo htail
    · intro done k' todo h
      -- the call is the first one, or one of the rest
      rcases done with _ | ⟨d, done⟩
      · obtain ⟨rfl, -⟩ := List.cons.inj h
        exact hout
      · rw [List.cons_append] at h
        obtain ⟨rfl, htail⟩ := List.cons.inj h
        exact houts done k' todo htail

/-! ## What a run puts out -/

section

variable (act : κ → EStateM ε σ α) (out : κ → σ → Option β)

/-- What the calls of a run put out, in order. -/
def outputs : List κ → σ → List β
  | [], _ => []
  | k :: ks, s => (out k s).toList ++ outputs ks (act k s).state

theorem outputs_append (ks ks' : List κ) (s : σ) :
    outputs act out (ks ++ ks') s = outputs act out ks s ++ outputs act out ks' (after act ks s) := by
  induction ks generalizing s with
  | nil => rfl
  | cons k ks ih => rw [List.cons_append, outputs, outputs, ih, after_cons, List.append_assoc]

variable {act out}

/-- What holds of every output of a run, with the ones before it. -/
theorem forall_outputs_iff {P : List β → β → Prop} {ks : List κ} {s : σ} :
    (∀ before b rest, outputs act out ks s = before ++ b :: rest → P before b) ↔
      ∀ done k todo, ks = done ++ k :: todo →
        ∀ b ∈ out k (after act done s), P (outputs act out done s) b := by
  constructor
  · rintro h done k todo rfl b hb
    refine h _ b (outputs act out todo (act k (after act done s)).state) ?_
    rw [outputs_append, outputs, Option.mem_def.mp hb, Option.toList_some, List.singleton_append]
  · -- over the calls from the last, which puts out the last output or none
    induction ks using List.reverseRecOn with
    | nil => intro _ before b rest h; cases before <;> cases h
    | append_singleton ks k ih =>
      intro h before b rest hsplit
      have hlast := h ks k [] rfl
      have hrest := ih fun done k' todo hks => h done k' (todo ++ [k]) (by simp [hks])
      rw [outputs_append, outputs, outputs, List.append_nil] at hsplit
      rcases hout : out k (after act ks s) with _ | b'
      · rw [hout, Option.toList_none, List.append_nil] at hsplit
        exact hrest before b rest hsplit
      · rw [hout, Option.toList_some] at hsplit
        rcases List.eq_nil_or_concat rest with rfl | ⟨rest, last, rfl⟩
        · obtain ⟨rfl, hb⟩ := List.append_inj' hsplit rfl
          exact hlast b (by rw [hout, List.singleton_inj.mp hb]; rfl)
        · rw [List.concat_eq_append, ← List.cons_append, ← List.append_assoc] at hsplit
          exact hrest before b rest (List.append_inj' hsplit rfl).1

/-- Two outputs of a run are related when each is related to the ones before it. -/
theorem pairwise_outputs_iff {P : β → β → Prop} {ks : List κ} {s : σ} :
    (outputs act out ks s).Pairwise P ↔ ∀ done k todo, ks = done ++ k :: todo →
      ∀ b ∈ out k (after act done s), ∀ a ∈ outputs act out done s, P a b := by
  constructor
  · rintro h done k todo rfl b hb a ha
    rw [outputs_append, outputs] at h
    refine (List.pairwise_append.mp h).2.2 a ha b ?_
    exact List.mem_append_left _ (Option.mem_toList.mpr hb)
  · induction ks using List.reverseRecOn with
    | nil => intro _; exact List.Pairwise.nil
    | append_singleton ks k ih =>
      intro h
      rw [outputs_append, outputs, outputs, List.append_nil, List.pairwise_append]
      refine ⟨ih ?_, ?_, ?_⟩
      · rintro done k' todo rfl
        exact h done k' (todo ++ [k]) (by simp)
      · cases out k (after act ks s) <;> simp
      · intro a ha b hb
        exact h ks k [] rfl b (Option.mem_toList.mp hb) a ha

end

end EStateM
