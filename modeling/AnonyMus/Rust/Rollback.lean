import AnonyMus.Rust.DoubleRatchet
import AnonyMus.Rust.Symbolic

/-!
# Rust core — what a failed `decrypt` leaves behind

`Session::decrypt` of `core/rust/src/protocol/double_ratchet.rs` mutates the
session before the AEAD call authenticates anything.

* `RejectedEarly` — the two checks that fail before any mutation;
* `decrypt_atomic_iff` — a failed `decrypt` leaves the session as it was
  exactly when one of them failed, and packets rejected by them never change
  what another packet decrypts to;
* `decrypt_not_atomic` — a packet with a wrong tag that costs the session the
  genuine one.
-/

namespace AnonyMus.Rust

variable {Priv Dh Key Nonce : Type} (P : Primitives Priv Dh Key Nonce)

/-- No stored key, and the call fails before its first mutation: at the bound
on the chain that would be left, or in the current chain at the bound or for
want of a receiving chain. -/
def RejectedEarly (s : Session Priv Key) (h : Header) : Prop :=
  s.skipped.get? ⟨h.dhPublic, h.n⟩ = none ∧
    if some h.dhPublic = s.dhRemote then s.nr + maxSkip < h.n ∨ s.ckr = none
    else s.nr + maxSkip < h.pn

instance [DecidableEq Key] (s : Session Priv Key) (h : Header) :
    Decidable (RejectedEarly s h) := by
  unfold RejectedEarly
  infer_instance

/-! ## Skipping -/

theorem skipMessageKeys_ok {s : Session Priv Key} {till : UInt32}
    (h : ¬ s.nr + maxSkip < till) : ∃ s', skipMessageKeys P till s = .ok () s' := by
  cases hckr : s.ckr with
  | none => exact ⟨_, skipMessageKeys_of_none P h hckr⟩
  | some ck => exact ⟨_, skipMessageKeys_of_some P h hckr⟩

/-- The loop touches the receiving chain, its counter and the stored keys. -/
theorem skipLoop_frame (till : UInt32) (fuel : ℕ) (ck : Key) (s : Session Priv Key) :
    (skipLoop P till fuel ck s).dhRemote = s.dhRemote ∧
      (skipLoop P till fuel ck s).ckr ≠ none := by
  induction fuel generalizing ck s with
  | zero => exact ⟨rfl, Option.some_ne_none _⟩
  | succ fuel ih =>
    rw [skipLoop]
    split
    · exact ih _ _
    · exact ⟨rfl, Option.some_ne_none _⟩

/-- The loop ends at `till`, or where it started if that is further. -/
theorem skipLoop_nr (till : UInt32) (fuel : ℕ) (ck : Key) (s : Session Priv Key)
    (hfuel : till.toNat - s.nr.toNat ≤ fuel) :
    (skipLoop P till fuel ck s).nr.toNat = max s.nr.toNat till.toNat := by
  induction fuel generalizing ck s with
  | zero =>
    rw [skipLoop, Nat.max_eq_left (by omega)]
  | succ fuel ih =>
    rw [skipLoop]
    split
    · rename_i hlt
      have hlt := UInt32.lt_iff_toNat_lt.mp hlt
      have hnr : (s.nr + 1).toNat = s.nr.toNat + 1 := toNat_succ_of_lt hlt
      rw [ih _ _ (by dsimp only; omega)]
      dsimp only
      omega
    · rename_i hge
      rw [UInt32.lt_iff_toNat_lt] at hge
      dsimp only
      omega

/-- Skipping leaves the peer key alone, failed or not. -/
theorem skipMessageKeys_dhRemote (till : UInt32) (s : Session Priv Key) :
    (skipMessageKeys P till s).state.dhRemote = s.dhRemote := by
  by_cases h : s.nr + maxSkip < till
  · rw [skipMessageKeys_of_lt P h]
    rfl
  · cases hckr : s.ckr with
    | none =>
      rw [skipMessageKeys_of_none P h hckr]
      rfl
    | some ck =>
      rw [skipMessageKeys_of_some P h hckr]
      exact (skipLoop_frame P till _ ck s).1

theorem takeKey_dhRemote (s : Session Priv Key) :
    (takeKey P s).state.dhRemote = s.dhRemote := by
  cases hckr : s.ckr with
  | none =>
    rw [takeKey_of_none P hckr]
    rfl
  | some ck =>
    rw [takeKey_of_some P hckr]
    rfl

/-! ## What the session looks like after a failure -/

section

variable {s : Session Priv Key} {h : Header}

/-- The last two steps of `receiveKey` leave the peer key alone. -/
theorem skip_take_dhRemote (s : Session Priv Key) (n : UInt32) :
    ((do skipMessageKeys P n; takeKey P : EStateM AnonymusError (Session Priv Key) Key)
      s).state.dhRemote = s.dhRemote := by
  have hskip := skipMessageKeys_dhRemote P n s
  rw [EStateM.apply_bind]
  cases hrun : skipMessageKeys P n s with
  | error e s₁ =>
    rw [hrun] at hskip
    exact hskip
  | ok _ s₁ =>
    rw [hrun] at hskip
    exact (takeKey_dhRemote P s₁).trans hskip

theorem receiveKey_of_rejected (generated : Priv) (hrej : RejectedEarly s h) :
    ∃ e, receiveKey P h generated s = .error e s := by
  obtain ⟨hmiss, hrej⟩ := hrej
  rw [receiveKey_of_miss P generated hmiss, EStateM.apply_bind]
  by_cases hd : some h.dhPublic = s.dhRemote
  · rw [if_pos hd] at hrej
    rw [turnTo_of_eq P generated hd]
    dsimp only
    rw [EStateM.apply_bind]
    by_cases hskip : s.nr + maxSkip < h.n
    · rw [skipMessageKeys_of_lt P hskip]
      exact ⟨_, rfl⟩
    · have hckr := hrej.resolve_left hskip
      rw [skipMessageKeys_of_none P hskip hckr]
      exact ⟨_, takeKey_of_none P hckr⟩
  · rw [if_neg hd] at hrej
    rw [turnTo_of_ne P generated hd, EStateM.apply_bind, skipMessageKeys_of_lt P hrej]
    exact ⟨_, rfl⟩

/-- Past the early checks some field is always different: a stored key is gone,
the peer key is the announced one, or the receiving chain has advanced. -/
theorem receiveKey_changes (generated : Priv) (hrej : ¬ RejectedEarly s h) :
    (receiveKey P h generated s).state ≠ s := by
  cases hstore : s.skipped.get? ⟨h.dhPublic, h.n⟩ with
  | some mk =>
    rw [receiveKey_of_stored P generated hstore]
    intro heq
    have hskip : s.skipped.erase ⟨h.dhPublic, h.n⟩ = s.skipped := congrArg (·.skipped) heq
    rw [Dict.erase_eq_self_iff, hstore] at hskip
    cases hskip
  | none =>
    rw [receiveKey_of_miss P generated hstore, EStateM.apply_bind]
    by_cases hd : some h.dhPublic = s.dhRemote
    · -- the current chain moves on by at least one message
      have hrej : ¬ (s.nr + maxSkip < h.n ∨ s.ckr = none) :=
        fun hx => hrej ⟨hstore, by rwa [if_pos hd]⟩
      obtain ⟨hskip, hckr⟩ := not_or.mp hrej
      obtain ⟨ck, hck⟩ := Option.ne_none_iff_exists'.mp hckr
      obtain ⟨ck', hck'⟩ := Option.ne_none_iff_exists'.mp
        (skipLoop_frame P h.n (h.n.toNat - s.nr.toNat) ck s).2
      have hnr := skipLoop_nr P h.n _ ck s (Nat.le_refl _)
      rw [turnTo_of_eq P generated hd]
      dsimp only
      rw [EStateM.apply_bind, skipMessageKeys_of_some P hskip hck]
      dsimp only
      rw [takeKey_of_some P hck']
      intro heq
      have hloop : (skipLoop P h.n (h.n.toNat - s.nr.toNat) ck s).nr + 1 = s.nr :=
        congrArg (·.nr) heq
      have hloop := congrArg UInt32.toNat hloop
      have hmax : maxSkip.toNat = 1000 := rfl
      have hn := h.n.toNat_lt
      rw [UInt32.toNat_add, UInt32.toNat_one, hnr] at hloop
      rw [UInt32.lt_iff_toNat_lt, UInt32.toNat_add, hmax] at hskip
      omega
    · -- the peer key is the announced one from the ratchet step on
      have hrej : ¬ s.nr + maxSkip < h.pn := fun hx => hrej ⟨hstore, by rwa [if_neg hd]⟩
      obtain ⟨s₁, hs₁⟩ := skipMessageKeys_ok P hrej
      obtain ⟨s₂, hs₂, -, -, hd₂⟩ := ratchetStep_view P h.dhPublic generated s₁
      rw [turnTo_of_ne P generated hd, EStateM.apply_bind, hs₁]
      dsimp only
      rw [hs₂]
      dsimp only
      intro heq
      have hlast := skip_take_dhRemote P s₂ h.n
      rw [heq, hd₂] at hlast
      exact hd hlast.symm

end

/-- Decryption ends in the state the message key was taken in. -/
theorem decrypt_state (headerBytes : Bytes 40) (ciphertext : List UInt8) (generated : Priv)
    (s : Session Priv Key) :
    (decrypt P headerBytes ciphertext generated s).state =
      (receiveKey P (Header.decode headerBytes) generated s).state := by
  rw [decrypt_eq]
  cases receiveKey P (Header.decode headerBytes) generated s with
  | error e s' => rfl
  | ok mk s' =>
    dsimp only
    cases P.decryptWithNonce mk (P.deriveNonce mk) ciphertext headerBytes.1 <;> rfl

/-! ## Runs -/

/-- A call on one session. -/
inductive Op (Priv : Type)
  | encrypt (plaintext : List UInt8)
  | decrypt (headerBytes : Bytes 40) (ciphertext : List UInt8) (generated : Priv)

/-- The call, with the packet or the plaintext it returns. -/
def Op.run : Op Priv →
    EStateM AnonymusError (Session Priv Key) ((Bytes 40 × List UInt8) ⊕ List UInt8)
  | .encrypt plaintext => Sum.inl <$> AnonyMus.Rust.encrypt P plaintext
  | .decrypt headerBytes ciphertext generated =>
    Sum.inr <$> AnonyMus.Rust.decrypt P headerBytes ciphertext generated

/-- The call is a `decrypt` rejected by one of the early checks. -/
def Op.Rejected (op : Op Priv) (s : Session Priv Key) : Prop :=
  ∃ headerBytes ciphertext generated, op = .decrypt headerBytes ciphertext generated ∧
    RejectedEarly s (Header.decode headerBytes)

theorem Op.run_state_of_rejected (op : Op Priv) (s : Session Priv Key)
    (hrej : op.Rejected s) : (op.run P s).state = s := by
  obtain ⟨headerBytes, ciphertext, generated, rfl, hrej⟩ := hrej
  obtain ⟨e, he⟩ := receiveKey_of_rejected P generated hrej
  have hstate := decrypt_state P headerBytes ciphertext generated s
  rw [he] at hstate
  rw [Op.run, EStateM.state_map, hstate]
  rfl

/-- **When a failed `decrypt` is harmless.** It leaves the session as it was
exactly when an early check failed, and any number of such packets in a run
change nothing that the genuine calls return. -/
theorem decrypt_atomic_iff :
    (∀ (s s' : Session Priv Key) (headerBytes : Bytes 40) (ciphertext : List UInt8)
        (generated : Priv) (e : AnonymusError),
      decrypt P headerBytes ciphertext generated s = .error e s' →
        (s' = s ↔ RejectedEarly s (Header.decode headerBytes))) ∧
    ∀ (s : Session Priv Key) (es : List (EStateM.Event (Op Priv))),
      EStateM.ForgedMeet (Op.run P) Op.Rejected es s →
        EStateM.outcomes (Op.run P) es s =
          EStateM.outcomes (Op.run P) (EStateM.genuineCalls es) s := by
  refine ⟨?_, fun s es h => EStateM.outcomes_genuine _ (Op.run_state_of_rejected P) h⟩
  intro s s' headerBytes ciphertext generated e hdec
  have hstate := decrypt_state P headerBytes ciphertext generated s
  rw [hdec] at hstate
  change s' = _ at hstate
  rw [hstate]
  constructor
  · intro heq
    by_contra hrej
    exact receiveKey_changes P generated hrej heq
  · intro hrej
    obtain ⟨e', he'⟩ := receiveKey_of_rejected P generated hrej
    rw [he']
    rfl

/-- Bob's fresh session, and a packet of his peer with a ciphertext that does
not authenticate: the session is left changed, and the genuine packet with the
same header, which Bob could read before, is lost. -/
theorem decrypt_not_atomic :
    let bob := initReceiver symbolic .secret 2
    let header := Header.encode ⟨symbolic.publicBytes 1, 0, 0⟩
    let genuine := (Term.message (.chain (.seed .secret) (1, 2))).encode ++ header.1 ++ [65]
    (decrypt symbolic header genuine 3 bob).value? = some [65] ∧
      ∃ e s', decrypt symbolic header [] 3 bob = .error e s' ∧ s' ≠ bob ∧
        (decrypt symbolic header genuine 4 s').value? = none :=
  ⟨by decide, _, _, rfl, by decide, by decide⟩

/-- A packet that announces too long a previous chain leaves Bob as he was, and
in front of the genuine one changes nothing. -/
theorem decrypt_atomic_iff_far :
    let bob := initReceiver symbolic .secret 2
    let header := Header.encode ⟨symbolic.publicBytes 1, 0, 0⟩
    let far := Header.encode ⟨symbolic.publicBytes 1, 1001, 0⟩
    let genuine := (Term.message (.chain (.seed .secret) (1, 2))).encode ++ header.1 ++ [65]
    (decrypt symbolic far [] 3 bob).state = bob ∧
      EStateM.outcomes (Op.run symbolic)
          [.forged (.decrypt far [] 3), .genuine (.decrypt header genuine 4)] bob =
        EStateM.outcomes (Op.run symbolic) [.genuine (.decrypt header genuine 4)] bob := by
  have hfar : decrypt symbolic (Header.encode ⟨symbolic.publicBytes 1, 1001, 0⟩) [] 3
      (initReceiver symbolic .secret 2) =
      .error (.decrypt "too many skipped messages") (initReceiver symbolic .secret 2) := rfl
  have hrej : RejectedEarly (initReceiver symbolic .secret 2)
      (Header.decode (Header.encode ⟨symbolic.publicBytes 1, 1001, 0⟩)) := by decide
  exact ⟨((decrypt_atomic_iff symbolic).1 _ _ _ _ _ _ hfar).mpr hrej,
    (decrypt_atomic_iff symbolic).2 _ _ ⟨⟨_, _, _, rfl, hrej⟩, trivial⟩⟩

end AnonyMus.Rust
