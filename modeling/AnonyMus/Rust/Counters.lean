import AnonyMus.Rust.SkippedKeys

/-!
# Rust core — the counters of a session

The `u32` additions of `core/rust/src/protocol/double_ratchet.rs` over runs with arbitrary headers. A
debug build panics where an addition overflows, a release build wraps.

* `Debug.encrypt`, `Debug.decrypt` — the methods as a debug build runs them;
* `debug_decrypt_eq`, `debug_decrypt_overflow` — where they do what a release build does, and where
  they panic;
* `CountersHold` — no addition overflows from a session on, and the bound on skipped messages is the
  one of unbounded arithmetic;
* `Fits`, `step_iff` — the calls that keep it so;
* `counters_hold_iff` — over every run;
* `inOrder_overflows` — a chain of messages in order that outgrows the bound.
-/

namespace AnonyMus.Rust

open EStateM (AllMeet after)

namespace Debug

/-! ## Debug builds -/

/-- How a call ends early: an addition panics, or the method returns an error. -/
inductive Stop
  | overflow
  | error (e : AnonymusError)
deriving DecidableEq

section

variable {σ α β : Type}

/-- `a + b` on `u32`. -/
def add (a b : UInt32) : EStateM Stop σ UInt32 :=
  if a.toNat + b.toNat < 2 ^ 32 then pure (a + b) else throw .overflow

/-- A call that does not panic. -/
def lift : EStateM.Result AnonymusError σ α → EStateM.Result Stop σ α
  | .ok a s => .ok a s
  | .error e s => .error (.error e) s

def ofResult (x : Except AnonymusError α) : EStateM Stop σ α :=
  fun s => lift ((ofExcept x : EStateM AnonymusError σ α) s)

end

section

variable {Priv Dh Key Nonce : Type} (P : Primitives Priv Dh Key Nonce)

def encrypt (plaintext : List UInt8) :
    EStateM Stop (Session Priv Key) (Bytes 40 × List UInt8) := do
  let s ← get
  match s.cks with
  | none => throw (.error (.internal "sending chain not initialised"))
  | some cks =>
    let out := P.fromChain cks
    let mk := out.1
    let newCk := out.2
    modify fun s => { s with cks := some newCk }
    let header : Header := { dhPublic := P.publicBytes s.dhSelf, pn := s.pn, n := s.ns }
    let ns ← add s.ns 1
    modify fun s => { s with ns := ns }
    let headerBytes := header.encode
    let nonce := P.deriveNonce mk
    let ct ← ofResult (P.encryptWithNonce mk nonce plaintext headerBytes.1)
    return (headerBytes, ct)

def ratchetStep (dhRemote : Bytes 32) (generated : Priv) :
    EStateM Stop (Session Priv Key) Unit :=
  fun s => lift (Rust.ratchetStep P dhRemote generated s)

def skipLoop (till : UInt32) : ℕ → Key → EStateM Stop (Session Priv Key) Unit
  | 0, ck => modify fun s => { s with ckr := some ck }
  | fuel + 1, ck => do
    let s ← get
    if s.nr < till then
      let out := P.fromChain ck
      let mk := out.1
      let newCk := out.2
      let skipKey : SkipKey := { dhPublic := s.dhRemote.getD (Bytes.replicate 32 0), n := s.nr }
      modify fun s => { s with skipped := s.skipped.insert skipKey mk }
      let nr ← add s.nr 1
      modify fun s => { s with nr := nr }
      skipLoop till fuel newCk
    else modify fun s => { s with ckr := some ck }

def skipMessageKeys (till : UInt32) : EStateM Stop (Session Priv Key) Unit := do
  let s ← get
  let bound ← add s.nr maxSkip
  if bound < till then
    throw (.error (.decrypt "too many skipped messages"))
  match s.ckr with
  | none => return
  | some ckr => skipLoop P till (till.toNat - s.nr.toNat) ckr

def turnTo (header : Header) (generated : Priv) : EStateM Stop (Session Priv Key) Unit := do
  if some header.dhPublic ≠ (← get).dhRemote then
    skipMessageKeys P header.pn
    ratchetStep P header.dhPublic generated

def takeKey : EStateM Stop (Session Priv Key) Key := do
  let s ← get
  match s.ckr with
  | none => throw (.error (.internal "receiving chain not initialised"))
  | some ckr =>
    let out := P.fromChain ckr
    let mk := out.1
    let newCkr := out.2
    modify fun s => { s with ckr := some newCkr }
    let nr ← add s.nr 1
    modify fun s => { s with nr := nr }
    return mk

def decrypt (headerBytes : Bytes 40) (ciphertext : List UInt8) (generated : Priv) :
    EStateM Stop (Session Priv Key) (List UInt8) := do
  let header := Header.decode headerBytes
  -- check skipped keys first
  let skipKey : SkipKey := { dhPublic := header.dhPublic, n := header.n }
  match (← get).skipped.get? skipKey with
  | some mkBytes =>
    modify fun s => { s with skipped := s.skipped.erase skipKey }
    let nonce := P.deriveNonce mkBytes
    ofResult (P.decryptWithNonce mkBytes nonce ciphertext headerBytes.1)
  | none =>
    turnTo P header generated
    skipMessageKeys P header.n
    let mk ← takeKey P
    let nonce := P.deriveNonce mk
    ofResult (P.decryptWithNonce mk nonce ciphertext headerBytes.1)

end

/-! ## Where they do what a release build does -/

section

variable {σ α β : Type}

theorem add_of_lt {a b : UInt32} (h : a.toNat + b.toNat < 2 ^ 32) (s : σ) :
    (add a b : EStateM Stop σ UInt32) s = .ok (a + b) s := by
  rw [add, if_pos h]
  rfl

theorem add_of_le {a b : UInt32} (h : 2 ^ 32 ≤ a.toNat + b.toNat) (s : σ) :
    (add a b : EStateM Stop σ UInt32) s = .error .overflow s := by
  rw [add, if_neg (Nat.not_lt.mpr h)]
  rfl

/-- A call after a call. -/
theorem bind_eq_lift {x : EStateM Stop σ α} {x' : EStateM AnonymusError σ α}
    {f : α → EStateM Stop σ β} {f' : α → EStateM AnonymusError σ β} {s : σ}
    (hx : x s = lift (x' s)) (hf : ∀ a s', x' s = .ok a s' → f a s' = lift (f' a s')) :
    (x >>= f) s = lift ((x' >>= f') s) := by
  rw [EStateM.apply_bind, EStateM.apply_bind, hx]
  rcases hrun : x' s with ⟨a, s'⟩ | ⟨e, s'⟩
  · exact hf a s' hrun
  · rfl

end

section

variable {Priv Dh Key Nonce : Type} (P : Primitives Priv Dh Key Nonce) {s : Session Priv Key}

/-- The loop counts up to a `u32`, so it never overflows. -/
theorem skipLoop_eq (till : UInt32) (fuel : ℕ) (ck : Key) (s : Session Priv Key) :
    skipLoop P till fuel ck s = .ok () (Rust.skipLoop P till fuel ck s) := by
  induction fuel generalizing ck s with
  | zero => rfl
  | succ fuel ih =>
    rw [skipLoop, Rust.skipLoop, EStateM.apply_bind, EStateM.apply_get]
    dsimp only
    by_cases hlt : s.nr < till
    · have hnat := UInt32.lt_iff_toNat_lt.mp hlt
      have htill := till.toNat_lt
      have hadd : s.nr.toNat + (1 : UInt32).toNat < 2 ^ 32 := by
        rw [UInt32.toNat_one]
        omega
      rw [if_pos hlt, if_pos hlt]
      simp only [EStateM.apply_bind, EStateM.apply_modify, add_of_lt hadd]
      exact ih _ _
    · rw [if_neg hlt, if_neg hlt]
      rfl

theorem skipMessageKeys_eq (h : s.nr.toNat + maxSkip.toNat < 2 ^ 32) (till : UInt32) :
    skipMessageKeys P till s = lift (Rust.skipMessageKeys P till s) := by
  rw [skipMessageKeys, EStateM.apply_bind, EStateM.apply_get]
  dsimp only
  rw [EStateM.apply_bind, add_of_lt h]
  dsimp only
  by_cases hfar : s.nr + maxSkip < till
  · rw [if_pos hfar, skipMessageKeys_of_lt P hfar]
    rfl
  · rw [if_neg hfar]
    rcases hckr : s.ckr with _ | ck
    · rw [skipMessageKeys_of_none P hfar hckr]
      rfl
    · rw [skipMessageKeys_of_some P hfar hckr]
      exact skipLoop_eq P till _ ck s

theorem takeKey_eq (h : s.nr.toNat + 1 < 2 ^ 32) : takeKey P s = lift (Rust.takeKey P s) := by
  rw [takeKey, EStateM.apply_bind, EStateM.apply_get]
  dsimp only
  rcases hckr : s.ckr with _ | ck
  · rw [takeKey_of_none P hckr]
    rfl
  · rw [takeKey_of_some P hckr]
    have hadd : s.nr.toNat + (1 : UInt32).toNat < 2 ^ 32 := h
    simp only [EStateM.apply_bind, EStateM.apply_modify, add_of_lt hadd]
    rfl

theorem takeKey_overflow {ck : Key} (hckr : s.ckr = some ck) (h : 2 ^ 32 ≤ s.nr.toNat + 1) :
    ∃ s', takeKey P s = .error .overflow s' := by
  rw [takeKey, EStateM.apply_bind, EStateM.apply_get]
  dsimp only
  rw [hckr]
  have hadd : 2 ^ 32 ≤ s.nr.toNat + (1 : UInt32).toNat := h
  simp only [EStateM.apply_bind, EStateM.apply_modify, add_of_le hadd]
  exact ⟨_, rfl⟩

theorem turnTo_eq (h : s.nr.toNat + maxSkip.toNat < 2 ^ 32) (header : Header) (generated : Priv) :
    turnTo P header generated s = lift (Rust.turnTo P header generated s) := by
  rw [turnTo, EStateM.apply_bind, EStateM.apply_get]
  dsimp only
  by_cases hd : some header.dhPublic = s.dhRemote
  · rw [turnTo_of_eq P generated hd, if_neg (not_not.mpr hd)]
    rfl
  · rw [turnTo_of_ne P generated hd, if_pos hd]
    exact bind_eq_lift (skipMessageKeys_eq P h header.pn) fun _ _ _ => rfl

theorem encrypt_eq (h : s.ns.toNat + 1 < 2 ^ 32) (plaintext : List UInt8) :
    encrypt P plaintext s = lift (Rust.encrypt P plaintext s) := by
  rw [encrypt, EStateM.apply_bind, EStateM.apply_get]
  dsimp only
  rcases hcks : s.cks with _ | ck
  · rw [encrypt_of_none P hcks]
    rfl
  · rw [encrypt_of_chain P hcks]
    have hadd : s.ns.toNat + (1 : UInt32).toNat < 2 ^ 32 := h
    simp only [EStateM.apply_bind, EStateM.apply_modify, add_of_lt hadd, ofResult,
      EStateM.apply_ofExcept]
    cases P.encryptWithNonce (P.fromChain ck).1 (P.deriveNonce (P.fromChain ck).1) plaintext
      (Header.encode ⟨P.publicBytes s.dhSelf, s.pn, s.ns⟩).1 <;> rfl

/-- Skipping up to a number and taking its key. -/
theorem skip_take_eq {n : UInt32} (hskip : s.nr.toNat + maxSkip.toNat < 2 ^ 32)
    (htake : s.ckr ≠ none → n.toNat ≤ s.nr.toNat + maxSkip.toNat →
      max s.nr.toNat n.toNat + 1 < 2 ^ 32) :
    (do skipMessageKeys P n; takeKey P : EStateM Stop (Session Priv Key) Key) s =
      lift ((do Rust.skipMessageKeys P n; Rust.takeKey P :
        EStateM AnonymusError (Session Priv Key) Key) s) := by
  refine bind_eq_lift (skipMessageKeys_eq P hskip n) ?_
  intro _ s' hs'
  refine takeKey_eq P ?_
  have hmax : maxSkip.toNat = 1000 := rfl
  by_cases hfar : s.nr + maxSkip < n
  · rw [skipMessageKeys_of_lt P hfar] at hs'
    cases hs'
  · rcases hckr : s.ckr with _ | ck
    · -- without a receiving chain nothing moves
      rw [skipMessageKeys_of_none P hfar hckr] at hs'
      cases hs'
      omega
    · rw [skipMessageKeys_of_some P hfar hckr] at hs'
      cases hs'
      rw [skipLoop_nr P n _ ck s le_rfl]
      rw [UInt32.lt_iff_toNat_lt, UInt32.toNat_add, Nat.mod_eq_of_lt hskip] at hfar
      exact htake (by rw [hckr]; exact Option.some_ne_none ck) (Nat.le_of_not_lt hfar)

end

end Debug

/-! ## One call -/

variable {Priv Dh Key Nonce : Type} (P : Primitives Priv Dh Key Nonce) {s : Session Priv Key}

/-- Where the sum does not overflow, the bound is the one of unbounded arithmetic. -/
theorem lt_iff_of_fits {n : UInt32} (h : s.nr.toNat + maxSkip.toNat < 2 ^ 32) :
    s.nr + maxSkip < n ↔ s.nr.toNat + maxSkip.toNat < n.toNat := by
  rw [UInt32.lt_iff_toNat_lt, UInt32.toNat_add, Nat.mod_eq_of_lt h]

/-- The ratchet stays where it is, or a new chain starts at 0. -/
theorem turnTo_counters {h : Header} {generated : Priv} {s' : Session Priv Key}
    (hs' : turnTo P h generated s = .ok () s') :
    some h.dhPublic = s.dhRemote ∧ s' = s ∨
      some h.dhPublic ≠ s.dhRemote ∧ s'.nr = 0 ∧ s'.ns = 0 := by
  by_cases hd : some h.dhPublic = s.dhRemote
  · rw [turnTo_of_eq P generated hd] at hs'
    cases hs'
    exact .inl ⟨hd, rfl⟩
  · rw [turnTo_of_ne P generated hd, EStateM.apply_bind] at hs'
    rcases hskip : skipMessageKeys P h.pn s with ⟨_, s₁⟩ | ⟨e, s₁⟩
    · rw [hskip] at hs'
      cases hs'
      exact .inr ⟨hd, rfl, rfl⟩
    · rw [hskip] at hs'
      cases hs'

theorem turnTo_error {h : Header} {generated : Priv} {e : AnonymusError} {s' : Session Priv Key}
    (hs' : turnTo P h generated s = .error e s') : s' = s := by
  by_cases hd : some h.dhPublic = s.dhRemote
  · rw [turnTo_of_eq P generated hd] at hs'
    cases hs'
  · rw [turnTo_of_ne P generated hd, EStateM.apply_bind] at hs'
    by_cases hfar : s.nr + maxSkip < h.pn
    · rw [skipMessageKeys_of_lt P hfar] at hs'
      cases hs'
      rfl
    · obtain ⟨s₁, hs₁⟩ := skipMessageKeys_ok P hfar
      rw [hs₁] at hs'
      cases hs'

theorem skipLoop_ns (till : UInt32) (fuel : ℕ) (ck : Key) (s : Session Priv Key) :
    (skipLoop P till fuel ck s).ns = s.ns := by
  induction fuel generalizing ck s with
  | zero => rfl
  | succ fuel ih =>
    rw [skipLoop]
    split
    · exact ih _ _
    · rfl

theorem skip_take_ns (n : UInt32) (s : Session Priv Key) :
    ((do skipMessageKeys P n; takeKey P : EStateM AnonymusError (Session Priv Key) Key)
      s).state.ns = s.ns := by
  have htake : ∀ s₁ : Session Priv Key, (takeKey P s₁).state.ns = s₁.ns := by
    intro s₁
    rcases hckr : s₁.ckr with _ | ck
    · rw [takeKey_of_none P hckr]
      rfl
    · rw [takeKey_of_some P hckr]
      rfl
  rw [EStateM.apply_bind]
  by_cases hfar : s.nr + maxSkip < n
  · rw [skipMessageKeys_of_lt P hfar]
    rfl
  · rcases hckr : s.ckr with _ | ck
    · rw [skipMessageKeys_of_none P hfar hckr]
      exact htake s
    · rw [skipMessageKeys_of_some P hfar hckr]
      exact (htake _).trans (skipLoop_ns P n _ ck s)

/-- Where the receiving counter stands after skipping up to a number and taking its key. -/
theorem skip_take_counter {n : UInt32} (hskip : s.nr.toNat + maxSkip.toNat < 2 ^ 32) :
    ((do skipMessageKeys P n; takeKey P : EStateM AnonymusError (Session Priv Key) Key)
      s).state.nr.toNat = if s.ckr = none ∨ s.nr.toNat + maxSkip.toNat < n.toNat then
        s.nr.toNat else (max s.nr.toNat n.toNat + 1) % 2 ^ 32 := by
  by_cases hfar : s.nr + maxSkip < n
  · rw [if_pos (.inr ((lt_iff_of_fits hskip).mp hfar)), EStateM.apply_bind,
      skipMessageKeys_of_lt P hfar]
    rfl
  · rcases hckr : s.ckr with _ | ck
    · rw [if_pos (.inl rfl), EStateM.apply_bind, skipMessageKeys_of_none P hfar hckr]
      dsimp only
      rw [takeKey_of_none P hckr]
      rfl
    · rw [if_neg (not_or.mpr ⟨Option.some_ne_none ck, mt (lt_iff_of_fits hskip).mpr hfar⟩)]
      exact (skip_take_nr P hckr hfar).1

/-! ## Calls that keep the counters -/

/-- From the session on no addition overflows, and `skip_message_keys` rejects exactly the numbers
beyond the bound, computed without one. -/
structure CountersHold (s : Session Priv Key) : Prop where
  skip    : s.nr.toNat + maxSkip.toNat < 2 ^ 32
  take    : s.nr.toNat + 1 < 2 ^ 32
  send    : s.ns.toNat + 1 < 2 ^ 32
  rejects : ∀ till, (∃ e s', skipMessageKeys P till s = .error e s') ↔
    s.nr.toNat + maxSkip.toNat < till.toNat

theorem CountersHold.of_lt (hskip : s.nr.toNat + maxSkip.toNat < 2 ^ 32)
    (hsend : s.ns.toNat + 1 < 2 ^ 32) : CountersHold P s where
  skip := hskip
  take := by
    have hmax : maxSkip.toNat = 1000 := rfl
    omega
  send := hsend
  rejects till := by
    rw [← lt_iff_of_fits hskip]
    constructor
    · rintro ⟨e, s', h⟩
      by_contra hnear
      obtain ⟨s₁, hs₁⟩ := skipMessageKeys_ok P hnear
      rw [hs₁] at h
      cases h
    · intro hfar
      exact ⟨_, _, skipMessageKeys_of_lt P hfar⟩

/-- The call as a debug build runs it. -/
def Op.runDebug : Op Priv →
    EStateM Debug.Stop (Session Priv Key) ((Bytes 40 × List UInt8) ⊕ List UInt8)
  | .encrypt plaintext => Sum.inl <$> Debug.encrypt P plaintext
  | .decrypt headerBytes ciphertext generated =>
    Sum.inr <$> Debug.decrypt P headerBytes ciphertext generated

/-- No addition that the call makes overflows. -/
def NoOverflow (op : Op Priv) (s : Session Priv Key) : Prop :=
  ∀ s', op.runDebug P s ≠ .error .overflow s'

/-- The call does not take the sending counter to its maximum, nor the receiving counter to where the
bound on skipped messages is beyond it. -/
def Fits (op : Op Priv) (s : Session Priv Key) : Prop :=
  match op with
  | .encrypt _ => s.cks ≠ none → s.ns.toNat + 2 < 2 ^ 32
  | .decrypt headerBytes _ _ =>
    let header := Header.decode headerBytes
    s.skipped.get? ⟨header.dhPublic, header.n⟩ = none → some header.dhPublic = s.dhRemote →
      s.ckr ≠ none → header.n.toNat ≤ s.nr.toNat + maxSkip.toNat →
        max s.nr.toNat header.n.toNat + 1 + maxSkip.toNat < 2 ^ 32

section

variable {P}

theorem NoOverflow.of_lift {α β : Type} {f : α → β} {x : EStateM Debug.Stop (Session Priv Key) α}
    {r : EStateM.Result AnonymusError (Session Priv Key) α} (h : x s = Debug.lift r)
    (s' : Session Priv Key) : (f <$> x) s ≠ .error .overflow s' := by
  show (x >>= fun a => pure (f a)) s ≠ _
  rw [EStateM.apply_bind, h]
  rcases r with ⟨a, s₁⟩ | ⟨e, s₁⟩ <;> simp [Debug.lift]

end

/-- A debug build decrypts as a release build does, where the last addition does not overflow. -/
theorem debug_decrypt_eq (hskip : s.nr.toNat + maxSkip.toNat < 2 ^ 32) {headerBytes : Bytes 40}
    (htake : let header := Header.decode headerBytes
      s.skipped.get? ⟨header.dhPublic, header.n⟩ = none → some header.dhPublic = s.dhRemote →
        s.ckr ≠ none → header.n.toNat ≤ s.nr.toNat + maxSkip.toNat →
          max s.nr.toNat header.n.toNat + 1 < 2 ^ 32)
    (ciphertext : List UInt8) (generated : Priv) :
    Debug.decrypt P headerBytes ciphertext generated s =
      Debug.lift (decrypt P headerBytes ciphertext generated s) := by
  simp only [Debug.decrypt, decrypt, EStateM.apply_bind, EStateM.apply_get]
  cases hstore : s.skipped.get? ⟨(Header.decode headerBytes).dhPublic,
      (Header.decode headerBytes).n⟩ with
  | some mk => rfl
  | none =>
    refine Debug.bind_eq_lift (Debug.turnTo_eq P hskip _ generated) ?_
    intro _ s₁ hs₁
    have hmax : maxSkip.toNat = 1000 := rfl
    have htail : (do Debug.skipMessageKeys P (Header.decode headerBytes).n; Debug.takeKey P :
        EStateM Debug.Stop (Session Priv Key) Key) s₁ =
          Debug.lift ((do skipMessageKeys P (Header.decode headerBytes).n; takeKey P :
            EStateM AnonymusError (Session Priv Key) Key) s₁) := by
      rcases turnTo_counters P hs₁ with ⟨hd, rfl⟩ | ⟨-, hnr, -⟩
      · exact Debug.skip_take_eq P hskip (htake hstore hd)
      · -- a new chain is far from the end
        have hzero : s₁.nr.toNat = 0 := by rw [hnr]; rfl
        exact Debug.skip_take_eq P (by omega) (by omega)
    rw [← bind_assoc, ← bind_assoc]
    exact Debug.bind_eq_lift htail fun _ _ _ => rfl

/-! ## Where a call leaves the counters -/

theorem encrypt_nr (plaintext : List UInt8) (s : Session Priv Key) :
    (encrypt P plaintext s).state.nr = s.nr := by
  rcases hcks : s.cks with _ | ck
  · rw [encrypt_of_none P hcks]
    rfl
  · rw [encrypt_of_chain P hcks]
    split <;> rfl

theorem encrypt_ns {ck : Key} (hcks : s.cks = some ck) (plaintext : List UInt8) :
    (encrypt P plaintext s).state.ns = s.ns + 1 := by
  rw [encrypt_of_chain P hcks]
  split <;> rfl

section

variable {headerBytes : Bytes 40} (ciphertext : List UInt8) (generated : Priv)

theorem decrypt_stored {mk : Key} (hstore : s.skipped.get? ⟨(Header.decode headerBytes).dhPublic,
      (Header.decode headerBytes).n⟩ = some mk) :
    (decrypt P headerBytes ciphertext generated s).state.nr = s.nr ∧
      (decrypt P headerBytes ciphertext generated s).state.ns = s.ns := by
  rw [decrypt_state, receiveKey_of_stored P generated hstore]
  exact ⟨rfl, rfl⟩

/-- In the chain at hand. -/
theorem decrypt_same (hskip : s.nr.toNat + maxSkip.toNat < 2 ^ 32)
    (hmiss : s.skipped.get? ⟨(Header.decode headerBytes).dhPublic, (Header.decode headerBytes).n⟩ =
      none)
    (hd : some (Header.decode headerBytes).dhPublic = s.dhRemote) :
    (decrypt P headerBytes ciphertext generated s).state.ns = s.ns ∧
      (decrypt P headerBytes ciphertext generated s).state.nr.toNat =
        if s.ckr = none ∨ s.nr.toNat + maxSkip.toNat < (Header.decode headerBytes).n.toNat then
          s.nr.toNat else (max s.nr.toNat (Header.decode headerBytes).n.toNat + 1) % 2 ^ 32 := by
  rw [decrypt_state, receiveKey_of_miss P generated hmiss, EStateM.apply_bind,
    turnTo_of_eq P generated hd]
  exact ⟨skip_take_ns P _ s, skip_take_counter P hskip⟩

/-- From a new ratchet key. -/
theorem decrypt_new
    (hmiss : s.skipped.get? ⟨(Header.decode headerBytes).dhPublic, (Header.decode headerBytes).n⟩ =
      none)
    (hd : some (Header.decode headerBytes).dhPublic ≠ s.dhRemote) :
    (decrypt P headerBytes ciphertext generated s).state = s ∨
      (decrypt P headerBytes ciphertext generated s).state.ns = 0 ∧
        (decrypt P headerBytes ciphertext generated s).state.nr.toNat ≤ maxSkip.toNat + 1 := by
  rw [decrypt_state, receiveKey_of_miss P generated hmiss, EStateM.apply_bind]
  rcases hturn : turnTo P (Header.decode headerBytes) generated s with ⟨_, s₁⟩ | ⟨e, s₁⟩
  · rcases turnTo_counters P hturn with ⟨hsame, -⟩ | ⟨-, hnr, hns⟩
    · exact absurd hsame hd
    · right
      have hzero : s₁.nr.toNat = 0 := by rw [hnr]; rfl
      have hmax : maxSkip.toNat = 1000 := rfl
      have hcounter : ((do skipMessageKeys P (Header.decode headerBytes).n; takeKey P :
          EStateM AnonymusError (Session Priv Key) Key) s₁).state.nr.toNat = _ :=
        skip_take_counter P (by omega)
      refine ⟨(skip_take_ns P _ s₁).trans hns, hcounter.trans_le ?_⟩
      rw [hzero]
      split_ifs with hfar
      · exact Nat.zero_le _
      · rw [not_or] at hfar
        omega
  · exact .inl (turnTo_error P hturn)

/-- Past the end of the chain at hand a debug build panics. -/
theorem debug_decrypt_overflow (hskip : s.nr.toNat + maxSkip.toNat < 2 ^ 32)
    (hmiss : s.skipped.get? ⟨(Header.decode headerBytes).dhPublic, (Header.decode headerBytes).n⟩ =
      none)
    (hd : some (Header.decode headerBytes).dhPublic = s.dhRemote) (hckr : s.ckr ≠ none)
    (hnear : (Header.decode headerBytes).n.toNat ≤ s.nr.toNat + maxSkip.toNat)
    (hend : 2 ^ 32 ≤ max s.nr.toNat (Header.decode headerBytes).n.toNat + 1) :
    ∃ s', Debug.decrypt P headerBytes ciphertext generated s = .error .overflow s' := by
  obtain ⟨ck, hck⟩ := Option.ne_none_iff_exists'.mp hckr
  have hfar : ¬ s.nr + maxSkip < (Header.decode headerBytes).n := by
    rw [lt_iff_of_fits hskip]
    exact Nat.not_lt.mpr hnear
  have hloop := skipLoop_frame P (Header.decode headerBytes).n
    ((Header.decode headerBytes).n.toNat - s.nr.toNat) ck s
  obtain ⟨ck', hck'⟩ := Option.ne_none_iff_exists'.mp hloop.2
  -- the loop ends at the maximum, and the key is taken after it
  obtain ⟨s', hs'⟩ := Debug.takeKey_overflow P hck'
    (by rw [skipLoop_nr P _ _ ck s le_rfl]; exact hend)
  have hturn := Debug.turnTo_eq P hskip (Header.decode headerBytes) generated
  have hskipped := Debug.skipMessageKeys_eq P hskip (Header.decode headerBytes).n
  rw [turnTo_of_eq P generated hd] at hturn
  rw [skipMessageKeys_of_some P hfar hck] at hskipped
  refine ⟨s', ?_⟩
  simp only [Debug.decrypt, EStateM.apply_bind, EStateM.apply_get, hmiss, hturn, Debug.lift,
    hskipped, hs']

end

/-! ## Every run -/

/-- The sending counter goes up by one where there is a chain. -/
theorem countersHold_encrypt_iff (hs : CountersHold P s) (plaintext : List UInt8) :
    CountersHold P (encrypt P plaintext s).state ↔ Fits (.encrypt plaintext) s := by
  have hnr := encrypt_nr P plaintext s
  rw [Fits]
  rcases hcks : s.cks with _ | ck
  · rw [encrypt_of_none P hcks]
    exact iff_of_true hs fun h => absurd rfl h
  · have hns : (encrypt P plaintext s).state.ns.toNat = s.ns.toNat + 1 := by
      rw [encrypt_ns P hcks, toNat_succ hs.send]
    constructor
    · intro hafter _
      have := hafter.send
      omega
    · intro hfits
      have := hfits (Option.some_ne_none ck)
      exact .of_lt P (by rw [hnr]; exact hs.skip) (by omega)

section

variable {headerBytes : Bytes 40} {ciphertext : List UInt8} {generated : Priv}

/-- A call that fits leaves room, wherever it takes its key from. -/
theorem countersHold_decrypt (hs : CountersHold P s)
    (hfits : Fits (.decrypt headerBytes ciphertext generated) s) :
    CountersHold P (decrypt P headerBytes ciphertext generated s).state := by
  have hmax : maxSkip.toNat = 1000 := rfl
  cases hstore : s.skipped.get? ⟨(Header.decode headerBytes).dhPublic,
      (Header.decode headerBytes).n⟩ with
  | some mk =>
    obtain ⟨hnr, hns⟩ := decrypt_stored P ciphertext generated hstore
    exact .of_lt P (by rw [hnr]; exact hs.skip) (by rw [hns]; exact hs.send)
  | none =>
    by_cases hd : some (Header.decode headerBytes).dhPublic = s.dhRemote
    · obtain ⟨hns, hnr⟩ := decrypt_same P ciphertext generated hs.skip hstore hd
      refine .of_lt P ?_ (by rw [hns]; exact hs.send)
      rw [hnr]
      split_ifs with hstay
      · exact hs.skip
      · obtain ⟨hckr, hnear⟩ := not_or.mp hstay
        have hroom := hfits hstore hd hckr (Nat.le_of_not_lt hnear)
        rw [Nat.mod_eq_of_lt (by omega)]
        exact hroom
    · rcases decrypt_new P ciphertext generated hstore hd with hsame | ⟨hns, hnr⟩
      · rw [hsame]
        exact hs
      · -- the counters of a new chain are small
        exact .of_lt P (by omega) (by rw [hns]; decide)

theorem noOverflow_decrypt (hs : CountersHold P s)
    (hfits : Fits (.decrypt headerBytes ciphertext generated) s) :
    NoOverflow P (.decrypt headerBytes ciphertext generated) s := by
  intro s'
  refine NoOverflow.of_lift (debug_decrypt_eq P hs.skip ?_ ciphertext generated) s'
  intro header hmiss hd hckr hnear
  have := hfits hmiss hd hckr hnear
  omega

/-- A call that does not fit overflows at once, or leaves no room. -/
theorem fits_of_decrypt (hs : CountersHold P s)
    (hafter : CountersHold P (decrypt P headerBytes ciphertext generated s).state)
    (hquiet : NoOverflow P (.decrypt headerBytes ciphertext generated) s) :
    Fits (.decrypt headerBytes ciphertext generated) s := by
  intro hmiss hd hckr hnear
  obtain ⟨-, hnr⟩ := decrypt_same P ciphertext generated hs.skip hmiss hd
  rw [if_neg (not_or.mpr ⟨hckr, Nat.not_lt.mpr hnear⟩)] at hnr
  by_cases hend : max s.nr.toNat (Header.decode headerBytes).n.toNat + 1 < 2 ^ 32
  · have := hafter.skip
    rwa [hnr, Nat.mod_eq_of_lt hend] at this
  · obtain ⟨s', hs'⟩ := debug_decrypt_overflow P ciphertext generated hs.skip hmiss hd hckr hnear
      (Nat.le_of_not_lt hend)
    refine absurd ?_ (hquiet s')
    show (Debug.decrypt P headerBytes ciphertext generated >>= fun a => pure (Sum.inr a)) s = _
    rw [EStateM.apply_bind, hs']

end

theorem step_iff (hs : CountersHold P s) (op : Op Priv) :
    CountersHold P (op.run P s).state ∧ NoOverflow P op s ↔ Fits op s := by
  cases op with
  | encrypt plaintext =>
    have hquiet : NoOverflow P (.encrypt plaintext) s := fun s' =>
      NoOverflow.of_lift (Debug.encrypt_eq P hs.send plaintext) s'
    rw [and_iff_left hquiet, Op.run, EStateM.state_map]
    exact countersHold_encrypt_iff P hs plaintext
  | decrypt headerBytes ciphertext generated =>
    rw [Op.run, EStateM.state_map]
    constructor
    · rintro ⟨hafter, hquiet⟩
      exact fits_of_decrypt P hs hafter hquiet
    · intro hfits
      exact ⟨countersHold_decrypt P hs hfits, noOverflow_decrypt P hs hfits⟩

/-- How a session begins. -/
inductive Start (Priv Key : Type)
  | sender (sharedSecret : Key) (bobRatchetPublic : Bytes 32) (generated : Priv)
  | receiver (sharedSecret : Key) (bobRatchetPrivate : Priv)

def Start.session : Start Priv Key → Session Priv Key
  | .sender sharedSecret bobRatchetPublic generated =>
    initSender P sharedSecret bobRatchetPublic generated
  | .receiver sharedSecret bobRatchetPrivate => initReceiver P sharedSecret bobRatchetPrivate

theorem Start.countersHold (start : Start Priv Key) : CountersHold P (start.session P) := by
  have hzero : (start.session P).nr = 0 ∧ (start.session P).ns = 0 := by
    cases start <;> exact ⟨rfl, rfl⟩
  exact .of_lt P (by rw [hzero.1]; decide) (by rw [hzero.2]; decide)

/-- **When the counters never overflow.** In a run, the additions overflow in no session that is
reached and in no call, and the bound on skipped messages is the one of unbounded arithmetic, exactly
when no call takes the sending counter to its maximum or the receiving counter to where the bound is
beyond it. -/
theorem counters_hold_iff (start : Start Priv Key) (ops : List (Op Priv)) :
    (∀ done todo, ops = done ++ todo →
        CountersHold P (after (Op.run P) done (start.session P))) ∧
      AllMeet (Op.run P) (NoOverflow P) ops (start.session P) ↔
    AllMeet (Op.run P) Fits ops (start.session P) :=
  EStateM.states_and_allMeet_iff (I := CountersHold P) (fun op _ hs => step_iff P hs op)
    (start.countersHold P)

/-! ## A long chain in order -/

/-- Messages from one ratchet key, in order, whatever their ciphertexts. -/
def inOrder (d : Bytes 32) (generated : Priv) (count : ℕ) : List (Op Priv) :=
  (List.range count).map fun i => .decrypt (Header.encode ⟨d, 0, UInt32.ofNat i⟩) [] generated

/-- Where the receiver stands after some of them. -/
structure Received (d : Bytes 32) (count : ℕ) (s : Session Priv Key) : Prop where
  remote  : s.dhRemote = some d
  chain   : s.ckr ≠ none
  number  : s.nr = UInt32.ofNat count
  skipped : s.skipped = Dict.empty

/-- The next number is at hand, and nothing is skipped. -/
theorem skip_take_next {n : UInt32} (hn : n = s.nr) (hskip : s.nr.toNat + maxSkip.toNat < 2 ^ 32)
    {ck : Key} (hckr : s.ckr = some ck) :
    ((do skipMessageKeys P n; takeKey P : EStateM AnonymusError (Session Priv Key) Key) s).state =
      { s with ckr := some (P.fromChain ck).2, nr := s.nr + 1 } := by
  have hnear : ¬ s.nr + maxSkip < n := by
    rw [lt_iff_of_fits hskip, hn]
    omega
  have hfuel : n.toNat - s.nr.toNat = 0 := by rw [hn, Nat.sub_self]
  rw [EStateM.apply_bind, skipMessageKeys_of_some P hnear hckr, hfuel]
  rfl

theorem received_one (ss : Key) (priv : Priv) (d : Bytes 32) (generated : Priv) :
    Received d 1 ((Op.decrypt (Header.encode ⟨d, 0, 0⟩) [] generated).run P
      (initReceiver P ss priv)).state := by
  rw [Op.run, EStateM.state_map, decrypt_state, Header.decode_encode,
    receiveKey_of_miss P generated rfl, EStateM.apply_bind,
    turnTo_of_ne P generated (Option.some_ne_none d)]
  exact ⟨rfl, Option.some_ne_none _, rfl, rfl⟩

theorem received_next {d : Bytes 32} {generated : Priv} {count : ℕ} (h : Received d count s)
    (hcount : count + maxSkip.toNat < 2 ^ 32) :
    Received d (count + 1)
      ((Op.decrypt (Header.encode ⟨d, 0, UInt32.ofNat count⟩) [] generated).run P s).state := by
  obtain ⟨ck, hck⟩ := Option.ne_none_iff_exists'.mp h.chain
  have hmiss : s.skipped.get? ⟨d, UInt32.ofNat count⟩ = none := by rw [h.skipped]; rfl
  have hnr : s.nr.toNat = count := by
    have hsize : UInt32.size = 2 ^ 32 := rfl
    rw [h.number]
    exact UInt32.toNat_ofNat_of_lt' (by omega)
  -- the header is for the key in use and not stored, so its key is taken from the chain
  have hstate := skip_take_next P h.number.symm (by rw [hnr]; exact hcount) hck
  rw [Op.run, EStateM.state_map, decrypt_state, Header.decode_encode,
    receiveKey_of_miss P generated hmiss, EStateM.apply_bind, turnTo_of_eq P generated h.remote.symm]
  refine Eq.subst hstate.symm ?_
  refine ⟨h.remote, Option.some_ne_none _, ?_, h.skipped⟩
  show s.nr + 1 = UInt32.ofNat (count + 1)
  rw [h.number, UInt32.ofNat_add]
  rfl

theorem received_inOrder (ss : Key) (priv : Priv) (d : Bytes 32) (generated : Priv) {count : ℕ}
    (hcount : count + maxSkip.toNat < 2 ^ 32) :
    Received d (count + 1)
      (after (Op.run P) (inOrder d generated (count + 1)) (initReceiver P ss priv)) := by
  induction count with
  | zero => exact received_one P ss priv d generated
  | succ count ih =>
    rw [inOrder, List.range_succ, List.map_append, EStateM.after_append]
    exact received_next P (ih (by omega)) hcount

/-- After `2 ^ 32 - 1000` messages in order the bound has wrapped: the next message in order is
rejected as one too far ahead. -/
theorem inOrder_overflows :
    let bob := after (Op.run symbolic) (inOrder (Bytes.replicate 32 1) 3 (2 ^ 32 - 1000))
      (Start.receiver .secret 2 |>.session symbolic)
    ¬ CountersHold symbolic bob ∧ bob.nr.toNat = 2 ^ 32 - 1000 ∧
      skipMessageKeys symbolic bob.nr bob = .error (.decrypt "too many skipped messages") bob := by
  intro bob
  have hreceived : Received (Bytes.replicate 32 1) (2 ^ 32 - 1001 + 1) bob :=
    received_inOrder symbolic .secret 2 _ 3 (by decide)
  have hnr : bob.nr = 4294966296 := hreceived.number
  refine ⟨?_, ?_, ?_⟩
  · intro hholds
    have hskip := hholds.skip
    rw [hnr] at hskip
    exact absurd hskip (by decide)
  · rw [hnr]
    rfl
  · refine skipMessageKeys_of_lt symbolic ?_
    rw [hnr]
    decide

end AnonyMus.Rust
