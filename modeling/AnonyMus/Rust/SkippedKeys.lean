import Mathlib.Data.Finset.Card
import AnonyMus.Lib.Simulation
import AnonyMus.Rust.Rollback

/-!
# Rust core — how many skipped keys a session stores

The buffer of `core/rust/src/protocol/double_ratchet.rs` over runs with
arbitrary headers. `MAX_SKIP` bounds one jump from where the chain stands;
the keys of earlier jumps stay stored.

* `storedFor`, `passes`, `jumps` — the keys stored for a ratchet key, and the
  message numbers a header makes the session pass over;
* `mem_keys_receiveKey` — one call stores exactly the keys of those numbers;
* `skippedBounded_iff` — when the buffer stays within `MAX_SKIP` for each
  ratchet key and failed messages add nothing to it;
* `second_jump` — two packets that nobody authenticated leave more.
-/

namespace AnonyMus.Rust

open EStateM (AllMeet after)

variable {Priv Dh Key Nonce : Type}

/-- The keys stored for a ratchet public key. -/
def Session.storedFor (s : Session Priv Key) (d : Bytes 32) : Finset SkipKey :=
  s.skipped.keys.toFinset.filter fun k => k.dhPublic = d

/-- The message numbers from `lo` up to `hi` in the chain of `d`. -/
def numbers (d : Bytes 32) (lo hi : ℕ) : List SkipKey :=
  (List.range' lo (hi - lo)).map fun i => ⟨d, UInt32.ofNat i⟩

/-- What `skip_message_keys` passes over in the chain at hand. -/
def Session.passes (s : Session Priv Key) (till : UInt32) : List SkipKey :=
  if s.nr + maxSkip < till ∨ s.ckr.isNone then []
  else numbers (s.dhRemote.getD (Bytes.replicate 32 0)) s.nr.toNat till.toNat

/-- What a header makes the session pass over: nothing where its key is stored;
otherwise the rest of the chain that it leaves, if it leaves one, and its own
chain up to its number. -/
def Session.jumps (s : Session Priv Key) (h : Header) : List SkipKey :=
  if (s.skipped.get? ⟨h.dhPublic, h.n⟩).isSome then []
  else if some h.dhPublic = s.dhRemote then s.passes h.n
  else if s.nr + maxSkip < h.pn then []
  else s.passes h.pn ++ if maxSkip < h.n then [] else numbers h.dhPublic 0 h.n.toNat

theorem mem_numbers {d : Bytes 32} {lo hi : ℕ} {k : SkipKey} :
    k ∈ numbers d lo hi ↔ ∃ i, lo ≤ i ∧ i < hi ∧ k = ⟨d, UInt32.ofNat i⟩ := by
  rw [numbers, List.mem_map]
  constructor
  · rintro ⟨i, hi, rfl⟩
    rw [List.mem_range'_1] at hi
    exact ⟨i, by omega, by omega, rfl⟩
  · rintro ⟨i, hlo, hhi, rfl⟩
    exact ⟨i, List.mem_range'_1.mpr (by omega), rfl⟩

variable (P : Primitives Priv Dh Key Nonce)

/-! ## One call -/

/-- The loop stores a key for each number it passes. -/
theorem mem_keys_skipLoop {till : UInt32} {fuel : ℕ} {ck : Key} {s : Session Priv Key}
    (hfuel : till.toNat - s.nr.toNat ≤ fuel) {k : SkipKey} :
    k ∈ (skipLoop P till fuel ck s).skipped.keys ↔ k ∈ s.skipped.keys ∨
      k ∈ numbers (s.dhRemote.getD (Bytes.replicate 32 0)) s.nr.toNat till.toNat := by
  induction fuel generalizing ck s with
  | zero =>
    have hnone : k ∉ numbers (s.dhRemote.getD (Bytes.replicate 32 0)) s.nr.toNat till.toNat := by
      rw [mem_numbers]
      rintro ⟨i, hlo, hhi, -⟩
      omega
    rw [skipLoop, or_iff_left hnone]
  | succ fuel ih =>
    rw [skipLoop]
    split
    case isTrue hlt =>
      have hlt := UInt32.lt_iff_toNat_lt.mp hlt
      have hnr : (s.nr + 1).toNat = s.nr.toNat + 1 := toNat_succ_of_lt hlt
      rw [ih (by dsimp only; omega)]
      dsimp only
      rw [Dict.mem_keys_insert, mem_numbers, mem_numbers, hnr, or_assoc, or_left_comm]
      refine or_congr_right ?_
      -- the number at hand, or a later one
      constructor
      · rintro (rfl | ⟨i, hlo, hhi, rfl⟩)
        · exact ⟨s.nr.toNat, Nat.le_refl _, hlt, by rw [UInt32.ofNat_toNat]⟩
        · exact ⟨i, by omega, hhi, rfl⟩
      · rintro ⟨i, hlo, hhi, rfl⟩
        rcases Nat.eq_or_lt_of_le hlo with rfl | hlo
        · exact Or.inl (by rw [UInt32.ofNat_toNat])
        · exact Or.inr ⟨i, hlo, hhi, rfl⟩
    case isFalse hge =>
      have hnone : k ∉ numbers (s.dhRemote.getD (Bytes.replicate 32 0)) s.nr.toNat till.toNat := by
        rw [mem_numbers]
        rintro ⟨i, hlo, hhi, -⟩
        exact hge (UInt32.lt_iff_toNat_lt.mpr (by omega))
      rw [or_iff_left hnone]

theorem mem_keys_skipMessageKeys {till : UInt32} {s : Session Priv Key} {k : SkipKey} :
    k ∈ (skipMessageKeys P till s).state.skipped.keys ↔
      k ∈ s.skipped.keys ∨ k ∈ s.passes till := by
  by_cases hfar : s.nr + maxSkip < till
  · have hnone : s.passes till = [] := if_pos (Or.inl hfar)
    rw [skipMessageKeys_of_lt P hfar, hnone]
    simp
  · cases hckr : s.ckr with
    | none =>
      have hnone : s.passes till = [] := if_pos (Or.inr (by rw [hckr]; rfl))
      rw [skipMessageKeys_of_none P hfar hckr, hnone]
      simp
    | some ck =>
      have hsome : s.passes till =
          numbers (s.dhRemote.getD (Bytes.replicate 32 0)) s.nr.toNat till.toNat :=
        if_neg (by simp [hfar, hckr])
      rw [skipMessageKeys_of_some P hfar hckr, hsome]
      exact mem_keys_skipLoop P (Nat.le_refl _)

theorem takeKey_skipped (s : Session Priv Key) : (takeKey P s).state.skipped = s.skipped := by
  cases hckr : s.ckr with
  | none =>
    rw [takeKey_of_none P hckr]
    rfl
  | some ck =>
    rw [takeKey_of_some P hckr]
    rfl

/-- Taking a key off the chain stores none. -/
theorem skip_take_skipped (s : Session Priv Key) (n : UInt32) :
    ((do skipMessageKeys P n; takeKey P : EStateM AnonymusError (Session Priv Key) Key)
      s).state.skipped = (skipMessageKeys P n s).state.skipped := by
  rw [EStateM.apply_bind]
  cases skipMessageKeys P n s with
  | error e s₁ => rfl
  | ok _ s₁ => exact takeKey_skipped P s₁

/-- After a DH ratchet step the chain of the new key starts at number 0. -/
theorem passes_ratchetStep (d : Bytes 32) (generated : Priv) (s : Session Priv Key)
    (n : UInt32) :
    ∃ s', ratchetStep P d generated s = .ok () s' ∧ s'.skipped = s.skipped ∧
      s'.passes n = if maxSkip < n then [] else numbers d 0 n.toNat := by
  refine ⟨_, rfl, rfl, ?_⟩
  simp [Session.passes]

/-- A header whose key is not stored leaves behind the keys of the numbers it
jumps over. -/
theorem mem_keys_receiveKey {s : Session Priv Key} {h : Header} (generated : Priv)
    (hmiss : s.skipped.get? ⟨h.dhPublic, h.n⟩ = none) {k : SkipKey} :
    k ∈ (receiveKey P h generated s).state.skipped.keys ↔
      k ∈ s.skipped.keys ∨ k ∈ s.jumps h := by
  rw [receiveKey_of_miss P generated hmiss, EStateM.apply_bind, Session.jumps, hmiss]
  -- from the ratchet key in use, the receiving chain is moved on to the number of the
  -- header
  by_cases hd : some h.dhPublic = s.dhRemote
  · rw [turnTo_of_eq P generated hd]
    dsimp only
    rw [skip_take_skipped, mem_keys_skipMessageKeys]
    simp [hd]
  -- from a new one, the old chain is moved on to `pn` first, and the new one starts at
  -- 0
  · rw [turnTo_of_ne P generated hd, EStateM.apply_bind]
    by_cases hfar : s.nr + maxSkip < h.pn
    -- too far ahead on the old chain, and nothing is stored
    · rw [skipMessageKeys_of_lt P hfar]
      simp [hd, hfar]
    · obtain ⟨s₁, hs₁⟩ := skipMessageKeys_ok P hfar
      have hkeys₁ : k ∈ (skipMessageKeys P h.pn s).state.skipped.keys ↔
          k ∈ s.skipped.keys ∨ k ∈ s.passes h.pn := mem_keys_skipMessageKeys P
      rw [hs₁, EStateM.Result.state_ok] at hkeys₁
      -- the ratchet step stores nothing, so the keys of the two chains add up
      obtain ⟨s₂, hs₂, hskipped, hpasses⟩ := passes_ratchetStep P h.dhPublic generated s₁ h.n
      rw [hs₁]
      dsimp only
      rw [hs₂]
      dsimp only
      rw [skip_take_skipped, mem_keys_skipMessageKeys, hskipped, hpasses, hkeys₁]
      simp [hd, hfar, or_assoc]

theorem jumps_of_stored {s : Session Priv Key} {h : Header} {mk : Key}
    (hstore : s.skipped.get? ⟨h.dhPublic, h.n⟩ = some mk) : s.jumps h = [] :=
  if_pos (by rw [hstore]; rfl)

section

variable {s : Session Priv Key} {headerBytes : Bytes 40} (ciphertext : List UInt8)
  (generated : Priv)

/-- What a call stores are keys of numbers that the header jumps over, whether
or not the message authenticates. -/
theorem mem_keys_of_mem_decrypt {k : SkipKey}
    (hk : k ∈ (decrypt P headerBytes ciphertext generated s).state.skipped.keys) :
    k ∈ s.skipped.keys ∨ k ∈ s.jumps (Header.decode headerBytes) := by
  rw [decrypt_state] at hk
  cases hstore : s.skipped.get? ⟨(Header.decode headerBytes).dhPublic,
      (Header.decode headerBytes).n⟩ with
  | none => exact (mem_keys_receiveKey P generated hstore).mp hk
  | some mk =>
    rw [receiveKey_of_stored P generated hstore] at hk
    exact Or.inl (Dict.mem_keys_erase.mp hk).1

theorem mem_decrypt_of_mem_jumps {k : SkipKey}
    (hk : k ∈ s.jumps (Header.decode headerBytes)) :
    k ∈ (decrypt P headerBytes ciphertext generated s).state.skipped.keys := by
  rw [decrypt_state]
  cases hstore : s.skipped.get? ⟨(Header.decode headerBytes).dhPublic,
      (Header.decode headerBytes).n⟩ with
  | none => exact (mem_keys_receiveKey P generated hstore).mpr (Or.inr hk)
  | some mk =>
    rw [jumps_of_stored hstore] at hk
    cases hk

/-- The keys stored for `d`, and those of the numbers that `h` jumps over in its
chain. -/
def Session.storedWith (s : Session Priv Key) (h : Header) (d : Bytes 32) : Finset SkipKey :=
  s.storedFor d ∪ (s.jumps h).toFinset.filter fun k => k.dhPublic = d

theorem storedFor_decrypt_subset (d : Bytes 32) :
    (decrypt P headerBytes ciphertext generated s).state.storedFor d ⊆
      s.storedWith (Header.decode headerBytes) d := by
  intro k hk
  simp only [Session.storedFor, Session.storedWith, Finset.mem_filter, List.mem_toFinset,
    Finset.mem_union] at hk ⊢
  exact (mem_keys_of_mem_decrypt P ciphertext generated hk.1).imp (⟨·, hk.2⟩) (⟨·, hk.2⟩)

/-- Where the header jumps over something, no stored key is used up. -/
theorem storedFor_decrypt_or (d : Bytes 32) :
    s.storedWith (Header.decode headerBytes) d = s.storedFor d ∨
      s.storedWith (Header.decode headerBytes) d =
        (decrypt P headerBytes ciphertext generated s).state.storedFor d := by
  cases hstore : s.skipped.get? ⟨(Header.decode headerBytes).dhPublic,
      (Header.decode headerBytes).n⟩ with
  | some mk =>
    left
    rw [Session.storedWith, jumps_of_stored hstore]
    simp
  | none =>
    right
    ext k
    simp only [Session.storedFor, Session.storedWith, Finset.mem_filter, List.mem_toFinset,
      Finset.mem_union, decrypt_state, mem_keys_receiveKey P generated hstore, or_and_right]

end

/-! ## Runs -/

/-- The message is not accepted. -/
def Refused (s : Session Priv Key) (headerBytes : Bytes 40) (ciphertext : List UInt8)
    (generated : Priv) : Prop :=
  ∃ e s', decrypt P headerBytes ciphertext generated s = .error e s'

/-- What the constant promises about the calls from `s` on. -/
structure SkippedBounded (ops : List (Op Priv)) (s : Session Priv Key) : Prop where
  bounded : ∀ done todo, ops = done ++ todo →
    ∀ d, ((after (Op.run P) done s).storedFor d).card ≤ maxSkip.toNat
  refused : ∀ done headerBytes ciphertext generated todo,
    ops = done ++ .decrypt headerBytes ciphertext generated :: todo →
    Refused P (after (Op.run P) done s) headerBytes ciphertext generated →
    ∀ k ∈ (decrypt P headerBytes ciphertext generated
      (after (Op.run P) done s)).state.skipped.keys, k ∈ (after (Op.run P) done s).skipped.keys

/-- The header of a `decrypt` jumps over no more than the buffer has room for,
and over nothing that is not stored if the message is refused. -/
def Op.WithinBuffer (op : Op Priv) (s : Session Priv Key) : Prop :=
  match op with
  | .encrypt _ => True
  | .decrypt headerBytes ciphertext generated =>
    (∀ d, (s.storedWith (Header.decode headerBytes) d).card ≤ maxSkip.toNat) ∧
      (Refused P s headerBytes ciphertext generated →
        ∀ k ∈ s.jumps (Header.decode headerBytes), k ∈ s.skipped.keys)

theorem encrypt_skipped (plaintext : List UInt8) (s : Session Priv Key) :
    (encrypt P plaintext s).state.skipped = s.skipped := by
  cases hcks : s.cks with
  | none =>
    rw [encrypt_of_none P hcks]
    rfl
  | some ck =>
    rw [encrypt_of_chain P hcks]
    split <;> rfl

/-- A call within the buffer keeps it bounded. -/
theorem Op.run_bounded (op : Op Priv) (s : Session Priv Key)
    (hs : ∀ d, (s.storedFor d).card ≤ maxSkip.toNat) (hop : op.WithinBuffer P s) (d : Bytes 32) :
    ((op.run P s).state.storedFor d).card ≤ maxSkip.toNat := by
  cases op with
  | encrypt plaintext =>
    rw [Op.run, EStateM.state_map, Session.storedFor, encrypt_skipped]
    exact hs d
  | decrypt headerBytes ciphertext generated =>
    rw [Op.run, EStateM.state_map]
    exact (Finset.card_le_card (storedFor_decrypt_subset P ciphertext generated d)).trans (hop.1 d)

theorem skippedBounded_iff_of_empty {s : Session Priv Key} (hs : s.skipped = Dict.empty)
    (ops : List (Op Priv)) :
    SkippedBounded P ops s ↔ AllMeet (Op.run P) (Op.WithinBuffer P) ops s := by
  -- a session without skipped keys is within the bound for every ratchet key
  have hstart : ∀ d, (s.storedFor d).card ≤ maxSkip.toNat := by
    intro d
    rw [Session.storedFor, hs]
    exact Nat.zero_le _
  constructor
  · intro h
    rw [EStateM.allMeet_iff]
    rintro done (_ | ⟨headerBytes, ciphertext, generated⟩) todo hops
    · trivial
    · constructor
      · intro d
        -- the bound at the middle of a call is the one before it or the one after it,
        -- and a run within the bound has both
        have hor : Session.storedWith (after (Op.run P) done s) (Header.decode headerBytes) d =
              Session.storedFor (after (Op.run P) done s) d ∨
            Session.storedWith (after (Op.run P) done s) (Header.decode headerBytes) d =
              (decrypt P headerBytes ciphertext generated
                (after (Op.run P) done s)).state.storedFor d :=
          storedFor_decrypt_or P ciphertext generated d
        rcases hor with heq | heq
        · rw [heq]
          exact h.bounded done _ hops d
        · have hnext := h.bounded (done ++ [.decrypt headerBytes ciphertext generated]) todo
            (by simp [hops]) d
          rw [EStateM.after_append, EStateM.after_cons, EStateM.after_nil, Op.run,
            EStateM.state_map] at hnext
          rw [heq]
          exact hnext
      -- a refused call stores the keys that it jumps over, which the claim allows to be
      -- none
      · intro hrefused k hk
        exact h.refused done _ _ _ todo hops hrefused k
          (mem_decrypt_of_mem_jumps P ciphertext generated hk)
  · intro hmeet
    constructor
    -- conversely, one call keeps the bound, and a run is a sequence of calls
    · rintro done todo rfl
      exact (EStateM.allMeet_append _ |>.mp hmeet).1.invariant
        (fun op s hs hop => Op.run_bounded P op s hs hop) hstart
    · rintro done headerBytes ciphertext generated todo rfl hrefused k hk
      obtain ⟨-, hnothing⟩ := (EStateM.allMeet_append _ |>.mp hmeet).2.1
      exact (mem_keys_of_mem_decrypt P ciphertext generated hk).elim id (hnothing hrefused k)

/-- **When the skipped keys are bounded.** From a fresh session on, the buffer
stays within `MAX_SKIP` for each ratchet key and refused messages add nothing to
it exactly when no header jumps over more than the buffer has room for, and no
refused message has a header that jumps over anything new. -/
theorem skippedBounded_iff :
    (∀ (sharedSecret : Key) (bobRatchetPublic : Bytes 32) (generated : Priv) (ops : List (Op Priv)),
      SkippedBounded P ops (initSender P sharedSecret bobRatchetPublic generated) ↔
        AllMeet (Op.run P) (Op.WithinBuffer P) ops
          (initSender P sharedSecret bobRatchetPublic generated)) ∧
    ∀ (sharedSecret : Key) (bobRatchetPrivate : Priv) (ops : List (Op Priv)),
      SkippedBounded P ops (initReceiver P sharedSecret bobRatchetPrivate) ↔
        AllMeet (Op.run P) (Op.WithinBuffer P) ops
          (initReceiver P sharedSecret bobRatchetPrivate) :=
  ⟨fun _ _ _ ops => skippedBounded_iff_of_empty P rfl ops,
    fun _ _ ops => skippedBounded_iff_of_empty P rfl ops⟩

/-! ## Two jumps -/

theorem notMem_numbers {d : Bytes 32} {lo hi : ℕ} {n : UInt32} (hn : hi ≤ n.toNat) :
    ⟨d, n⟩ ∉ numbers d lo hi := by
  rw [mem_numbers]
  rintro ⟨i, -, hi, heq⟩
  have hlt := n.toNat_lt
  have hsize : UInt32.size = 2 ^ 32 := rfl
  have heq := congrArg UInt32.toNat (SkipKey.mk.inj heq).2
  rw [UInt32.toNat_ofNat_of_lt' (by omega)] at heq
  omega

theorem card_numbers {d : Bytes 32} {lo hi : ℕ} (hhi : hi ≤ 2 ^ 32) :
    (numbers d lo hi).toFinset.card = hi - lo := by
  have hnodup : (numbers d lo hi).Nodup := by
    rw [numbers, List.nodup_map_iff_inj_on List.nodup_range']
    intro i hi' j hj heq
    rw [List.mem_range'_1] at hi' hj
    have hsize : UInt32.size = 2 ^ 32 := rfl
    have hn := congrArg UInt32.toNat (SkipKey.mk.inj heq).2
    rwa [UInt32.toNat_ofNat_of_lt' (by omega), UInt32.toNat_ofNat_of_lt' (by omega)] at hn
  rw [List.toFinset_card_of_nodup hnodup, numbers, List.length_map, List.length_range']

/-- Where the receiving chain stands after a jump. -/
theorem skip_take_nr {s : Session Priv Key} {n : UInt32} {ck : Key} (hckr : s.ckr = some ck)
    (hnear : ¬ s.nr + maxSkip < n) :
    ((do skipMessageKeys P n; takeKey P : EStateM AnonymusError (Session Priv Key) Key)
      s).state.nr.toNat = (max s.nr.toNat n.toNat + 1) % 2 ^ 32 ∧
    ((do skipMessageKeys P n; takeKey P : EStateM AnonymusError (Session Priv Key) Key)
      s).state.ckr.isSome := by
  obtain ⟨ck', hck'⟩ := Option.ne_none_iff_exists'.mp
    (skipLoop_frame P n (n.toNat - s.nr.toNat) ck s).2
  rw [EStateM.apply_bind, skipMessageKeys_of_some P hnear hckr]
  dsimp only
  rw [takeKey_of_some P hck']
  refine ⟨?_, rfl⟩
  rw [EStateM.Result.state_ok, UInt32.toNat_add, UInt32.toNat_one,
    skipLoop_nr P n _ ck s (Nat.le_refl _)]

/-- The first packet from the ratchet key `d`, with number 1000, has a fresh
receiver move on to number 1001, whatever its ciphertext. -/
theorem first_jump (ss : Key) (priv : Priv) (d : Bytes 32) (ciphertext : List UInt8)
    (generated : Priv) {s : Session Priv Key}
    (hs : s = (decrypt P (Header.encode ⟨d, 0, 1000⟩) ciphertext generated
      (initReceiver P ss priv)).state) :
    s.dhRemote = some d ∧ s.nr.toNat = 1001 ∧ s.ckr.isSome := by
  have hmiss : (initReceiver P ss priv).skipped.get? ⟨d, 1000⟩ = none := rfl
  have hturn : some d ≠ (initReceiver P ss priv).dhRemote := Option.some_ne_none d
  -- the first header turns the ratchet, from a chain that is not there yet
  have hskip : skipMessageKeys P 0 (initReceiver P ss priv) = .ok () (initReceiver P ss priv) :=
    skipMessageKeys_of_none P (by show ¬ (0 : UInt32) + maxSkip < 0; decide) rfl
  obtain ⟨s₁, hs₁, hck, hnr, hd⟩ : ∃ s₁, ratchetStep P d generated (initReceiver P ss priv) =
      .ok () s₁ ∧ (∃ ck, s₁.ckr = some ck) ∧ s₁.nr = 0 ∧ s₁.dhRemote = some d :=
    ⟨_, rfl, ⟨_, rfl⟩, rfl, rfl⟩
  obtain ⟨ck, hck⟩ := hck
  have hrun : s = ((do skipMessageKeys P 1000; takeKey P :
      EStateM AnonymusError (Session Priv Key) Key) s₁).state := by
    rw [hs, decrypt_state, Header.decode_encode, receiveKey_of_miss P generated hmiss,
      EStateM.apply_bind, turnTo_of_ne P generated hturn, EStateM.apply_bind, hskip]
    dsimp only
    rw [hs₁]
  -- 1000 is within the reach of the new chain, which is at 0
  have hnear : ¬ s₁.nr + maxSkip < 1000 := by
    rw [hnr]
    decide
  obtain ⟨hnr', hck'⟩ := skip_take_nr P hck hnear
  rw [hrun]
  refine ⟨(skip_take_dhRemote P s₁ 1000).trans hd, ?_, hck'⟩
  rw [hnr', hnr]
  rfl

/-- A second packet in that chain, with number 1002, comes on top of the thousand
keys of the first. -/
theorem second_jump (ss : Key) (priv : Priv) (d : Bytes 32) (ct ct' : List UInt8)
    (generated generated' : Priv) :
    maxSkip.toNat < ((after (Op.run P)
      [.decrypt (Header.encode ⟨d, 0, 1000⟩) ct generated,
        .decrypt (Header.encode ⟨d, 0, 1002⟩) ct' generated']
      (initReceiver P ss priv)).storedFor d).card := by
  simp only [EStateM.after_cons, EStateM.after_nil, Op.run, EStateM.state_map]
  set s := (decrypt P (Header.encode ⟨d, 0, 1000⟩) ct generated (initReceiver P ss priv)).state
    with hs
  obtain ⟨hd, hnr, hck⟩ := first_jump P ss priv d ct generated hs
  have hfirst : ∀ k, k ∈ s.skipped.keys ↔ k ∈ numbers d 0 1000 := by
    intro k
    rw [hs, decrypt_state, Header.decode_encode, mem_keys_receiveKey P generated rfl]
    have hnone : k ∉ (initReceiver P ss priv).skipped.keys := List.not_mem_nil
    rw [or_iff_right hnone]
    rfl
  have hmiss : s.skipped.get? ⟨d, 1002⟩ = none := by
    rw [Dict.get?_eq_none_iff_notMem_keys, hfirst]
    exact notMem_numbers (by decide)
  -- the second header passes over number 1001
  have hjumps : (⟨d, 1001⟩ : SkipKey) ∈ s.jumps ⟨d, 0, 1002⟩ := by
    have hnear : ¬ s.nr + maxSkip < 1002 := by
      have hnr' : s.nr = 1001 := UInt32.toNat_inj.mp hnr
      rw [hnr']
      decide
    rw [Session.jumps, hmiss, if_neg (by simp), if_pos hd.symm, Session.passes,
      if_neg (by simp [hnear, Option.isSome_iff_ne_none.mp hck]), hd, hnr, mem_numbers]
    exact ⟨1001, by omega, by show 1001 < (1002 : UInt32).toNat; decide, rfl⟩
  have hstored : insert ⟨d, 1001⟩ (numbers d 0 1000).toFinset ⊆
      (decrypt P (Header.encode ⟨d, 0, 1002⟩) ct' generated' s).state.storedFor d := by
    intro k hk
    rw [Session.storedFor, Finset.mem_filter, List.mem_toFinset, decrypt_state,
      Header.decode_encode, mem_keys_receiveKey P generated' hmiss, hfirst]
    rcases Finset.mem_insert.mp hk with rfl | hk
    · exact ⟨Or.inr hjumps, rfl⟩
    · have hk := List.mem_toFinset.mp hk
      obtain ⟨i, -, -, rfl⟩ := mem_numbers.mp hk
      exact ⟨Or.inl hk, rfl⟩
  have hnew : (⟨d, 1001⟩ : SkipKey) ∉ (numbers d 0 1000).toFinset := by
    rw [List.mem_toFinset]
    exact notMem_numbers (by decide)
  have hcard := Finset.card_le_card hstored
  rw [Finset.card_insert_of_notMem hnew, card_numbers (by omega)] at hcard
  have hmax : maxSkip.toNat = 1000 := rfl
  omega

/-- Two packets that nobody authenticated, from a ratchet key Bob has not seen. -/
def twoJumps : List (Op UInt8) :=
  [.decrypt (Header.encode ⟨symbolic.publicBytes 1, 0, 1000⟩) [] 3,
    .decrypt (Header.encode ⟨symbolic.publicBytes 1, 0, 1002⟩) [] 4]

theorem twoJumps_fails : ¬ SkippedBounded symbolic twoJumps (initReceiver symbolic .secret 2) := by
  intro h
  have hle := h.bounded twoJumps [] (List.append_nil _).symm (symbolic.publicBytes 1)
  exact absurd hle (Nat.not_le_of_lt (second_jump symbolic .secret 2 _ [] [] 3 4))

end AnonyMus.Rust
