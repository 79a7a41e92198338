import AnonyMus.Lib.Simulation
import AnonyMus.Rust.PqRatchet

/-!
# Rust core — when the post-quantum ratchet is due

Runs of `step_send` from a fresh state, with the peer's encapsulation key set
and unset between the calls.

* `sendWith`, `Periodic` — a call, and the promise: a failed call costs nothing,
  and every tenth call that succeeds carries a ciphertext;
* `Due` — the calls whose number is a multiple of the period, as the counter
  has it;
* `periodic_iff` — a run keeps the promise exactly when every due call has a key
  the KEM takes, and the counter has not come round to its first period again.
-/

namespace AnonyMus.Rust

open EStateM (after outputs)
open PqRatchetState

variable {Kp Seed : Type}

/-- A call of `step_send`: the key `peer_ek` holds by then, and what the
encapsulation draws. -/
structure SendCall (Seed : Type) where
  peerEk : Option (List UInt8)
  seed   : Seed

variable (K : Kem Kp Seed)

def sendWith (c : SendCall Seed) :
    EStateM AnonymusError (PqRatchetState Kp) (Option (List UInt8 × Bytes 32)) := do
  modify fun s => { s with peerEk := c.peerEk }
  stepSend K c.seed

/-- What the calls return, in order. -/
def returned (calls : List (SendCall Seed)) (s : PqRatchetState Kp) :
    List (Except AnonymusError (Option (List UInt8 × Bytes 32))) :=
  outputs (sendWith K) (fun c s => some (sendWith K c s).toExcept) calls s

/-- How many calls have succeeded without a ciphertext since the last one. -/
def quietCalls (rs : List (Except AnonymusError (Option (List UInt8 × Bytes 32)))) : ℕ :=
  rs.foldl (fun n r => match r with
    | .ok none => n + 1
    | .ok (some _) => 0
    | .error _ => n) 0

/-- What the ratchet promises about the calls from the state `s` on. -/
structure Periodic (calls : List (SendCall Seed)) (s : PqRatchetState Kp) : Prop where
  /-- A failed call leaves the counter alone. -/
  atomic : ∀ done c todo, calls = done ++ c :: todo → ∀ e s',
    sendWith K c (after (sendWith K) done s) = .error e s' →
      s'.counter = (after (sendWith K) done s).counter
  /-- The ciphertext it owes comes with the next call that has a key. -/
  owed : ∀ done c mid d todo, calls = done ++ c :: (mid ++ d :: todo) →
    (∃ e s', sendWith K c (after (sendWith K) done s) = .error e s') →
    (∀ m ∈ mid, m.peerEk = none) → d.peerEk ≠ none →
      ∃ out s', sendWith K d (after (sendWith K) (done ++ c :: mid) s) = .ok (some out) s'
  /-- Ciphertexts are a period apart. -/
  spaced : ∀ done c todo, calls = done ++ c :: todo → ∀ out s',
    sendWith K c (after (sendWith K) done s) = .ok (some out) s' →
      quietCalls (returned K done s) = pqRatchetPeriod.toNat - 1

/-- The `n`-th call is due: what `should_ratchet` says about a counter of 32
bits that stands at `n`. -/
def Due (n : ℕ) : Prop := n % 2 ^ 32 % 10 = 0 ∧ 0 < n % 2 ^ 32

/-- The call has a key, and the KEM takes it. -/
def Encapsulates (c : SendCall Seed) : Prop :=
  ∃ ek out, c.peerEk = some ek ∧ K.encapsulate ek c.seed = .ok out

variable {K}

/-! ## One call -/

theorem sendWith_state (c : SendCall Seed) (s : PqRatchetState Kp) :
    (sendWith K c s).state = { s with peerEk := c.peerEk, counter := s.counter + 1 } := by
  simp only [sendWith, EStateM.apply_bind, EStateM.apply_modify, stepSend_state]

theorem shouldRatchet_iff (s : PqRatchetState Kp) :
    s.shouldRatchet = true ↔ Due s.counter.toNat := by
  have hlt := s.counter.toNat_lt
  simp [shouldRatchet, Due, pqRatchetPeriod, ← UInt32.toNat_inj, UInt32.lt_iff_toNat_lt,
    Nat.mod_eq_of_lt hlt]

theorem sendWith_of_not_due {c : SendCall Seed} {s : PqRatchetState Kp}
    (hdue : ¬ Due (s.counter + 1).toNat) : ∃ s', sendWith K c s = .ok none s' := by
  have hshould : ¬ ({ s with peerEk := c.peerEk, counter := s.counter + 1 } :
      PqRatchetState Kp).shouldRatchet = true := fun h => hdue ((shouldRatchet_iff _).mp h)
  simp only [sendWith, stepSend, EStateM.apply_bind, EStateM.apply_modify, EStateM.apply_get]
  rw [if_pos hshould]
  exact ⟨_, rfl⟩

theorem sendWith_of_due {c : SendCall Seed} {s : PqRatchetState Kp}
    (hdue : Due (s.counter + 1).toNat) :
    (Encapsulates K c ∧ ∃ out s', sendWith K c s = .ok (some out) s') ∨
      (¬ Encapsulates K c ∧ ∃ e s', sendWith K c s = .error e s') := by
  -- the counter is incremented before the period is tested
  have hshould : ({ s with peerEk := c.peerEk, counter := s.counter + 1 } :
      PqRatchetState Kp).shouldRatchet = true := (shouldRatchet_iff _).mpr hdue
  simp only [sendWith, stepSend, EStateM.apply_bind, EStateM.apply_modify, EStateM.apply_get]
  rw [if_neg (not_not_intro hshould)]
  cases hek : c.peerEk with
  -- without a key of the peer the ratchet fails
  | none =>
    right
    refine ⟨?_, _, _, rfl⟩
    rintro ⟨ek, out, hsome, -⟩
    rw [hek] at hsome
    cases hsome
  | some ek =>
    -- with one, it fails only where the encapsulation does; the counter stays
    -- incremented
    cases henc : K.encapsulate ek c.seed with
    | ok out =>
      left
      refine ⟨⟨ek, out, hek, henc⟩, (out.2, out.1),
        { s with peerEk := some ek, counter := s.counter + 1 }, ?_⟩
      simp only [EStateM.apply_bind, henc]
      rfl
    | error e =>
      right
      refine ⟨?_, e, { s with peerEk := some ek, counter := s.counter + 1 }, ?_⟩
      · rintro ⟨ek', out, hsome, hok⟩
        rw [hek, Option.some.injEq] at hsome
        rw [← hsome, henc] at hok
        cases hok
      · simp only [EStateM.apply_bind, henc]
        rfl

/-! ## Runs -/

/-- In its first round, and up to the first period of its second one, the counter
makes the multiples of ten due. -/
theorem due_iff_of_lt {n : ℕ} (hn : n < 2 ^ 32 + 10) :
    Due n ↔ n < 2 ^ 32 ∧ n % 10 = 0 ∧ 0 < n := by
  unfold Due
  by_cases hround : n < 2 ^ 32
  · have hmod : n % 2 ^ 32 = n := Nat.mod_eq_of_lt hround
    omega
  · -- in the second round the counter is still below ten
    have hmod : n % 2 ^ 32 = n - 2 ^ 32 := by
      rw [Nat.mod_eq_sub_mod (by omega)]
      exact Nat.mod_eq_of_lt (by omega)
    omega

/-- The counter counts the calls, failed or not. -/
theorem counter_after (calls : List (SendCall Seed)) (s : PqRatchetState Kp) :
    (after (sendWith K) calls s).counter = s.counter + UInt32.ofNat calls.length := by
  induction calls generalizing s with
  | nil => simp
  | cons c calls ih =>
    rw [EStateM.after_cons, ih, sendWith_state, List.length_cons, UInt32.ofNat_add]
    show s.counter + 1 + UInt32.ofNat calls.length = s.counter + (UInt32.ofNat calls.length + 1)
    rw [UInt32.add_assoc, UInt32.add_comm 1]

theorem due_next_iff (done : List (SendCall Seed)) (generated : Kp) :
    Due ((after (sendWith K) done (new generated)).counter + 1).toNat ↔
      Due (done.length + 1) := by
  have hcounter : ((after (sendWith K) done (new generated)).counter + 1).toNat =
      (done.length + 1) % 2 ^ 32 := by
    rw [counter_after]
    simp [new, UInt32.toNat_add, UInt32.toNat_ofNat']
  rw [hcounter, Due, Due, Nat.mod_mod]

/-- Every due call of the run has a key that the KEM takes. -/
def Supplied (K : Kem Kp Seed) (calls : List (SendCall Seed)) : Prop :=
  ∀ done c todo, calls = done ++ c :: todo → Due (done.length + 1) → Encapsulates K c

theorem returned_append_singleton (done : List (SendCall Seed)) (c : SendCall Seed)
    (s : PqRatchetState Kp) :
    returned K (done ++ [c]) s =
      returned K done s ++ [(sendWith K c (after (sendWith K) done s)).toExcept] :=
  EStateM.outputs_append ..

/-- While every due call is supplied, the calls since the last ciphertext are the
remainder of the counter; when it has come round to 0, six more than it shows. -/
theorem quietCalls_returned {done : List (SendCall Seed)} (generated : Kp)
    (hsupplied : Supplied K done) (hlen : done.length < 2 ^ 32 + 10) :
    quietCalls (returned K done (new generated)) =
      if done.length < 2 ^ 32 then done.length % 10 else done.length - 2 ^ 32 + 6 := by
  induction done using List.reverseRecOn with
  | nil => rfl
  | append_singleton done c ih =>
    rw [List.length_append, List.length_singleton] at hlen ⊢
    have hdone : Supplied K done := by
      rintro before d rest rfl hdue
      exact hsupplied before d (rest ++ [c]) (by simp) hdue
    have hprev := ih hdone (by omega)
    rw [returned_append_singleton, quietCalls, List.foldl_append, List.foldl_cons, List.foldl_nil]
    rw [quietCalls] at hprev
    rw [hprev]
    have hnext := due_next_iff (K := K) done generated
    by_cases hdue : Due (done.length + 1)
    · -- a ciphertext: the number of the call is a multiple of ten below the bound
      rcases sendWith_of_due (K := K) (c := c) (hnext.mpr hdue) with ⟨-, out, s', h⟩ | ⟨hno, -⟩
      · rw [h]
        obtain ⟨hround, hten, -⟩ := (due_iff_of_lt hlen).mp hdue
        rw [if_pos hround, hten]
        rfl
      · exact absurd (hsupplied done c [] rfl hdue) hno
    · obtain ⟨s', h⟩ := sendWith_of_not_due (K := K) (c := c) (mt hnext.mp hdue)
      rw [h]
      rw [due_iff_of_lt hlen] at hdue
      simp only [EStateM.Result.toExcept]
      split <;> split <;> omega

theorem Supplied.of_append {done todo : List (SendCall Seed)}
    (h : Supplied K (done ++ todo)) : Supplied K done := by
  rintro before c rest rfl hdue
  exact h before c (rest ++ todo) (by simp) hdue

/-- A call fails only when it is due and not supplied. -/
theorem no_error {calls done todo : List (SendCall Seed)} {c : SendCall Seed} {generated : Kp}
    (hsupplied : Supplied K calls) (hcalls : calls = done ++ c :: todo) :
    ¬ ∃ e s', sendWith K c (after (sendWith K) done (new generated)) = .error e s' := by
  rintro ⟨e, s', herr⟩
  by_cases hdue : Due ((after (sendWith K) done (new generated)).counter + 1).toNat
  · rcases sendWith_of_due (K := K) (c := c) hdue with ⟨-, out, s'', hok⟩ | ⟨hno, -⟩
    · rw [herr] at hok
      cases hok
    · exact hno (hsupplied done c todo hcalls ((due_next_iff done generated).mp hdue))
  · obtain ⟨s'', hok⟩ := sendWith_of_not_due (K := K) (c := c) hdue
    rw [herr] at hok
    cases hok

/-- A failed call has already moved the counter. -/
theorem Periodic.supplied {calls : List (SendCall Seed)} {generated : Kp}
    (h : Periodic K calls (new generated)) : Supplied K calls := by
  intro done c todo hcalls hdue
  rcases sendWith_of_due (K := K) (c := c) ((due_next_iff done generated).mpr hdue) with
    ⟨henc, -⟩ | ⟨-, e, s', herr⟩
  · exact henc
  · have hsame := h.atomic done c todo hcalls e s' herr
    have hmoved := congrArg (fun r => (EStateM.Result.state r).counter) herr
    simp only [sendWith_state, EStateM.Result.state_error] at hmoved
    rw [hsame] at hmoved
    exact absurd hmoved (by simp)

/-- **When sending is atomic and periodic.** A run from a fresh state keeps the
promise exactly when every due call has a key that the KEM takes, and the run
ends before the counter of 32 bits has come round to its first period again: a
failed call has already moved the counter, and the round ends within a period. -/
theorem periodic_iff (K : Kem Kp Seed) (generated : Kp) (calls : List (SendCall Seed)) :
    Periodic K calls (new generated) ↔ Supplied K calls ∧ calls.length < 2 ^ 32 + 10 := by
  constructor
  · intro h
    have hsupplied := h.supplied
    refine ⟨hsupplied, ?_⟩
    by_contra hlong
    -- the first ciphertext of the second round comes after fifteen calls without one
    have hlt : 2 ^ 32 + 9 < calls.length := by omega
    have hcalls : calls = calls.take (2 ^ 32 + 9) ++
        calls[2 ^ 32 + 9] :: calls.drop (2 ^ 32 + 9 + 1) := by
      rw [← List.drop_eq_getElem_cons hlt, List.take_append_drop]
    have hlen : (calls.take (2 ^ 32 + 9)).length = 2 ^ 32 + 9 := by
      rw [List.length_take]
      omega
    have hdue : Due ((calls.take (2 ^ 32 + 9)).length + 1) := by
      rw [hlen]
      exact ⟨by decide, by decide⟩
    rcases sendWith_of_due (K := K) (c := calls[2 ^ 32 + 9])
      ((due_next_iff _ generated).mpr hdue) with ⟨-, out, s', hok⟩ | ⟨hno, -⟩
    · have hnine := h.spaced _ _ _ hcalls out s' hok
      have hprefix : Supplied K (calls.take (2 ^ 32 + 9)) := by
        rw [hcalls] at hsupplied
        exact hsupplied.of_append
      rw [quietCalls_returned generated hprefix (by omega), hlen] at hnine
      exact absurd hnine (by decide)
    · exact hno (hsupplied _ _ _ hcalls hdue)
  · rintro ⟨hsupplied, hlen⟩
    refine ⟨?_, ?_, ?_⟩
    · intro done c todo hcalls e s' herr
      exact absurd ⟨e, s', herr⟩ (no_error hsupplied hcalls)
    · intro done c mid d todo hcalls herr
      exact absurd herr (no_error hsupplied hcalls)
    · intro done c todo hcalls out s' hok
      have hdue : Due (done.length + 1) := by
        by_contra hnot
        obtain ⟨s'', hquiet⟩ := sendWith_of_not_due (K := K) (c := c)
          (mt (due_next_iff done generated).mp hnot)
        rw [hquiet] at hok
        cases hok
      have hlt : done.length + 1 < 2 ^ 32 + 10 := by
        rw [hcalls, List.length_append, List.length_cons] at hlen
        omega
      have hprefix : Supplied K done := by
        rw [hcalls] at hsupplied
        exact hsupplied.of_append
      obtain ⟨hround, hten, -⟩ := (due_iff_of_lt hlt).mp hdue
      rw [quietCalls_returned generated hprefix (by omega), if_pos (by omega)]
      show done.length % 10 = 9
      omega

/-! ## A run -/

/-- Nine messages, and a tenth before the peer's key has arrived. -/
def tenWithoutKey : List (SendCall UInt8) := List.replicate 10 ⟨none, 7⟩

/-- The tenth call fails and moves the counter all the same. -/
theorem tenWithoutKey_fails : ¬ Periodic sampleKem tenWithoutKey (new 1) := by
  intro h
  have hdue : Due 10 := ⟨rfl, by decide⟩
  obtain ⟨ek, out, hnone, -⟩ := h.supplied (List.replicate 9 ⟨none, 7⟩) ⟨none, 7⟩ [] rfl hdue
  cases hnone

end AnonyMus.Rust
