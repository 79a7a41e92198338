import AnonyMus.Python.DoubleRatchet

/-!
# Python core — bridge to the abstract ratchet

A session of `core/double_ratchet.py` stands for a party of the abstract
ratchet. The code agrees with it step by step as long as nothing is refused,
except that it may evict stored keys when 1000 of them are stored.

* `Shows` — the session stands for this party;
* `Keeps` — it stands for this party up to evicted keys, and exactly when there
  was room for every key;
* `Shows.encrypt`, `Keeps.skipMessages`, `Keeps.ratchetStep` — one operation;
* `decrypt_keeps` — `decrypt` takes the key that the abstract ratchet takes.
-/

namespace AnonyMus.Python

open Ratchet (Party)

variable {Priv : Type} (C : Crypto Priv)

/-- The primitives as the abstract ratchet takes them. -/
def Crypto.kdf :
    Ratchet.Kdf Priv (Bytes 32) (Bytes 32) (List UInt8) (Bytes 32) (Bytes 32) where
  pub := C.publicBytes
  dh x d := (C.exchange x d).getD (Bytes.replicate 32 0)
  kdfRk := rootRatchet C
  kdfCk := chainRatchet C

/-- The session stands for the party: field by field, with the stored keys
written in hexadecimal under their text keys. -/
structure Shows (s : DoubleRatchetSession Priv)
    (p : Party Priv (Bytes 32) (List UInt8) (Bytes 32) (Bytes 32)) : Prop where
  self    : s.dhPrivate = some p.self
  remote  : s.dhRemote = p.remote
  rk      : s.rootKey = some p.rk
  cks     : s.sendingChainKey = p.cks
  ckr     : s.receivingChainKey = p.ckr
  ns      : s.seqSend = p.ns
  nr      : s.seqRecv = p.nr
  pn      : s.prevChainLength = p.pn
  skipped : ∀ (d : Bytes 32) (n : ℕ),
    s.skippedMessageKeys.get? (skipKey d.1 n) = (p.skipped d n).map fun key => toHex key.1

/-- The session stands for the party with some stored keys lost, and with none
lost if `full`. -/
def Keeps (full : Prop) (s : DoubleRatchetSession Priv)
    (q : Party Priv (Bytes 32) (List UInt8) (Bytes 32) (Bytes 32)) : Prop :=
  ∃ kept, (∀ d n key, kept d n = some key → q.skipped d n = some key) ∧
    (full → kept = q.skipped) ∧ Shows s { q with skipped := kept }

theorem Shows.keeps {s : DoubleRatchetSession Priv}
    {p : Party Priv (Bytes 32) (List UInt8) (Bytes 32) (Bytes 32)} (h : Shows s p)
    (full : Prop) : Keeps full s p :=
  ⟨p.skipped, fun _ _ _ hkey => hkey, fun _ => rfl, h⟩

/-! ## Initial sessions and sending -/

theorem initBob_shows (ss : List UInt8) (b : Priv) :
    Shows (initBob ss b) (Party.initReceiver ss b) :=
  ⟨rfl, rfl, rfl, rfl, rfl, rfl, rfl, rfl, fun _ _ => rfl⟩

theorem initAlice_shows (ss : List UInt8) {d shared : Bytes 32} {a : Priv}
    (hexchange : C.exchange a d = some shared) :
    ∃ s, initAlice C ss d.1 a = .ok s ∧ Shows s (Party.initSender C.kdf ss a d) := by
  have hinit := initAlice_of_exchange C ss hexchange
  have hdh : C.kdf.dh a d = shared := by
    simp only [Crypto.kdf, hexchange, Option.getD_some]
  refine ⟨_, hinit, rfl, rfl, ?_, ?_, rfl, rfl, rfl, rfl, fun _ _ => rfl⟩
  · simp only [Party.initSender, hdh]
    rfl
  · simp only [Party.initSender, hdh]
    rfl

theorem Shows.encrypt {s : DoubleRatchetSession Priv}
    {p : Party Priv (Bytes 32) (List UInt8) (Bytes 32) (Bytes 32)} (h : Shows s p)
    (hchain : s.sendingChainKey ≠ none) :
    ∃ key hd p' s', p.send C.kdf = some (key, hd, p') ∧
      encrypt C s = .ok (key, hd.dh, hd.n, hd.pn) s' ∧ Shows s' p' ∧
      s'.skippedMessageKeys = s.skippedMessageKeys := by
  obtain ⟨ck, hck⟩ := Option.ne_none_iff_exists'.mp hchain
  have hcks : p.cks = some ck := h.cks.symm.trans hck
  have hsend : p.send C.kdf = some ((chainRatchet C ck).1, ⟨C.publicBytes p.self, p.pn, p.ns⟩,
      { p with cks := some (chainRatchet C ck).2, ns := p.ns + 1 }) := by
    rw [Party.send, hcks]
    rfl
  have henc := encrypt_of_chain C h.self hck
  rw [h.ns, h.pn] at henc
  exact ⟨_, _, _, _, hsend, henc, ⟨h.self, h.remote, h.rk, rfl, h.ckr, rfl, h.nr, rfl,
    h.skipped⟩, rfl⟩

/-! ## Skipping -/

section

variable {C} {full : Prop} {s : DoubleRatchetSession Priv}
  {q : Party Priv (Bytes 32) (List UInt8) (Bytes 32) (Bytes 32)}

/-- How many keys `_skip_messages` stores on the way to `till`. -/
def skips (s : DoubleRatchetSession Priv) (till : ℕ) : ℕ :=
  match s.receivingChainKey, s.dhRemote with
  | some _, some _ => till - s.seqRecv
  | _, _ => 0

/-- Evicting the oldest key when the map is full loses keys at most. -/
theorem evict_keeps {D : Dict (List Char) (List Char)} {stored : Bytes 32 → ℕ → Option (Bytes 32)}
    (hD : ∀ (d : Bytes 32) (n : ℕ),
      D.get? (skipKey d.1 n) = (stored d n).map fun key => toHex key.1) :
    ∃ kept : Bytes 32 → ℕ → Option (Bytes 32),
      (∀ d n key, kept d n = some key → stored d n = some key) ∧
      (D.size < 1000 → kept = stored) ∧
      ∀ (d : Bytes 32) (n : ℕ),
        (if 1000 ≤ D.size then D.dropOldest else D).get? (skipKey d.1 n) =
          (kept d n).map fun key => toHex key.1 := by
  by_cases hsize : 1000 ≤ D.size
  · refine ⟨fun d n => if D.dropOldest.get? (skipKey d.1 n) = none then none else stored d n,
      ?_, fun hlt => absurd hsize (Nat.not_le_of_lt hlt), ?_⟩
    · intro d n key hkey
      dsimp only at hkey
      split at hkey
      · cases hkey
      · exact hkey
    · intro d n
      rw [if_pos hsize]
      dsimp only
      cases hget : D.dropOldest.get? (skipKey d.1 n) with
      | none => rw [if_pos rfl, Option.map_none]
      | some v =>
        rw [if_neg (Option.some_ne_none v), ← hD d n]
        exact (Dict.get?_of_get?_dropOldest hget).symm
  · refine ⟨stored, fun _ _ _ hkey => hkey, fun _ => rfl, fun d n => ?_⟩
    rw [if_neg hsize]
    exact hD d n

theorem size_dropOldest_le (D : Dict (List Char) (List Char)) : D.dropOldest.size ≤ D.size := by
  simp [Dict.dropOldest, Dict.size]

theorem size_skipRound (d : Bytes 32) (s : DoubleRatchetSession Priv) :
    (skipRound C d s).skippedMessageKeys.size ≤ s.skippedMessageKeys.size + 1 := by
  unfold skipRound
  split
  · exact Nat.le_succ _
  · refine Nat.le_trans (Dict.size_insert_le _ _ _) (Nat.succ_le_succ ?_)
    split
    · exact size_dropOldest_le _
    · exact Nat.le_refl _

/-- One round of the loop stores one key. -/
theorem Keeps.skipRound (h : Keeps full s q) {ck d : Bytes 32} (hck : q.ckr = some ck)
    (hroom : full → s.skippedMessageKeys.size < 1000) :
    Keeps full (skipRound C d s) { q with
      ckr := some (chainRatchet C ck).2, nr := q.nr + 1,
      skipped := fun d' n =>
        if d' = d ∧ n = q.nr then some (chainRatchet C ck).1 else q.skipped d' n } := by
  obtain ⟨kept, hkept, hall, hs⟩ := h
  obtain ⟨kept', hkept', hall', hD⟩ := evict_keeps hs.skipped
  have hck' : s.receivingChainKey = some ck := hs.ckr.trans hck
  refine ⟨fun d' n => if d' = d ∧ n = q.nr then some (chainRatchet C ck).1 else kept' d' n,
    ?_, fun hfull => ?_, ?_⟩
  · intro d' n key hkey
    dsimp only at hkey ⊢
    split at hkey
    · rename_i hslot
      rwa [if_pos hslot]
    · rename_i hslot
      rw [if_neg hslot]
      exact hkept _ _ _ (hkept' _ _ _ hkey)
  · rw [hall' (hroom hfull), hall hfull]
  · simp only [Python.skipRound, hck']
    refine ⟨hs.self, hs.remote, hs.rk, hs.cks, rfl, hs.ns, congrArg (· + 1) hs.nr, hs.pn, ?_⟩
    intro d' n
    have hnr : s.seqRecv = q.nr := hs.nr
    rw [Dict.get?_insert, hnr, hD d' n]
    simp only [skipKey_eq_iff]
    split
    · rfl
    · rfl

/-- The loop skips like the abstract ratchet. -/
theorem Keeps.skipLoop {till : ℕ} (fuel : ℕ) (h : Keeps full s q) {ck d : Bytes 32}
    (hck : q.ckr = some ck) (hd : q.remote = some d) (hfuel : till - q.nr ≤ fuel)
    (hroom : full → s.skippedMessageKeys.size + (till - q.nr) ≤ 1000) :
    Keeps full (skipLoop C d till fuel s) (q.skip C.kdf till) ∧
      (skipLoop C d till fuel s).skippedMessageKeys.size ≤
        s.skippedMessageKeys.size + (till - q.nr) := by
  induction fuel generalizing s q ck with
  | zero =>
    rw [Party.skip_of_le C.kdf (by omega)]
    exact ⟨h, Nat.le_add_right ..⟩
  | succ fuel ih =>
    have hnr : s.seqRecv = q.nr := by
      obtain ⟨_, _, _, hs⟩ := h
      exact hs.nr
    rw [Python.skipLoop]
    by_cases hlt : q.nr < till
    · rw [if_pos (by omega), Party.skip_step C.kdf hck hd hlt]
      have hsize := size_skipRound (C := C) d s
      have hround := h.skipRound (C := C) (d := d) hck fun hfull => by
        have := hroom hfull
        omega
      obtain ⟨hk, hle⟩ := ih hround rfl hd (by dsimp only; omega) fun hfull => by
        have := hroom hfull
        dsimp only
        omega
      refine ⟨hk, Nat.le_trans hle ?_⟩
      dsimp only
      omega
    · rw [if_neg (by omega), Party.skip_of_le C.kdf (by omega)]
      exact ⟨h, Nat.le_add_right ..⟩

theorem Keeps.skipMessages {till : ℕ} (h : Keeps full s q) (hfar : ¬ TooFar s till)
    (hroom : full → s.skippedMessageKeys.size + skips s till ≤ 1000) :
    ∃ s', skipMessages C till s = .ok () s' ∧ Keeps full s' (q.skip C.kdf till) ∧
      s'.skippedMessageKeys.size ≤ s.skippedMessageKeys.size + skips s till := by
  obtain ⟨kept, hkept, hall, hs⟩ := h
  have h : Keeps full s q := ⟨kept, hkept, hall, hs⟩
  have hckr : s.receivingChainKey = q.ckr := hs.ckr
  have hrem : s.dhRemote = q.remote := hs.remote
  have hnr : s.seqRecv = q.nr := hs.nr
  by_cases hnone : s.receivingChainKey = none ∨ s.dhRemote = none
  · -- without a chain neither the code nor the abstract ratchet skips
    have hskip : q.skip C.kdf till = q := by
      rw [hckr, hrem] at hnone
      unfold Party.skip
      rcases hnone with hnone | hnone
      · rw [hnone]
      · rw [hnone]
        cases q.ckr <;> rfl
    rw [hskip]
    exact ⟨s, skipMessages_of_none C hnone, h, Nat.le_add_right ..⟩
  · obtain ⟨hck, hd⟩ := not_or.mp hnone
    obtain ⟨ck, hck⟩ := Option.ne_none_iff_exists'.mp hck
    obtain ⟨d, hd⟩ := Option.ne_none_iff_exists'.mp hd
    have hskips : skips s till = till - q.nr := by
      rw [skips, hck, hd, hnr]
    rw [hskips] at hroom ⊢
    obtain ⟨hk, hsize⟩ := h.skipLoop (C := C) ((till : ℤ) - s.seqRecv).toNat
      (hckr ▸ hck) (hrem ▸ hd) (by omega) hroom
    exact ⟨_, skipMessages_of_some C hck hd hfar, hk, hsize⟩

/-- The ratchet step, when both exchanges succeed. -/
theorem Keeps.ratchetStep (h : Keeps full s q) {d z z' : Bytes 32} {generated : Priv}
    (hz : C.exchange q.self d = some z) (hz' : C.exchange generated d = some z') :
    ∃ s', ratchetStep C d generated s = .ok () s' ∧
      Keeps full s' (q.ratchet C.kdf d generated) ∧
      s'.skippedMessageKeys = s.skippedMessageKeys ∧ s'.dhRemote = some d ∧ s'.seqRecv = 0 := by
  obtain ⟨kept, hkept, hall, hs⟩ := h
  have hself : s.dhPrivate = some q.self := hs.self
  have hroot : s.rootKey = some q.rk := hs.rk
  have hdh : C.kdf.dh q.self d = z := by simp only [Crypto.kdf, hz, Option.getD_some]
  have hdh' : C.kdf.dh generated d = z' := by simp only [Crypto.kdf, hz', Option.getD_some]
  refine ⟨_, ratchetStep_of_exchange C hself hroot hz hz', ⟨kept, hkept, hall, ?_⟩, rfl, rfl,
    rfl⟩
  simp only [Party.ratchet, hdh, hdh']
  exact ⟨rfl, rfl, rfl, rfl, rfl, rfl, rfl, hs.ns, hs.skipped⟩

/-! ## Decryption -/

/-- The message with this header has its key stored. -/
def Stored (s : DoubleRatchetSession Priv) (hd : Ratchet.Header (Bytes 32)) : Prop :=
  s.skippedMessageKeys.get? (skipKey hd.dh.1 hd.n) ≠ none

instance (s : DoubleRatchetSession Priv) (hd : Ratchet.Header (Bytes 32)) :
    Decidable (Stored s hd) := by
  unfold Stored
  infer_instance

/-- `decrypt` does not refuse to skip on the way to this header. -/
def WithinSkip (s : DoubleRatchetSession Priv) (hd : Ratchet.Header (Bytes 32)) : Prop :=
  ¬ Stored s hd →
    if s.dhRemote = some hd.dh then ¬ TooFar s hd.n else ¬ TooFar s hd.pn ∧ hd.n ≤ 100

instance (s : DoubleRatchetSession Priv) (hd : Ratchet.Header (Bytes 32)) :
    Decidable (WithinSkip s hd) := by
  unfold WithinSkip
  infer_instance

/-- How many keys `decrypt` stores on the way to this header. -/
def skipsTo (s : DoubleRatchetSession Priv) (hd : Ratchet.Header (Bytes 32)) : ℕ :=
  if Stored s hd then 0
  else if s.dhRemote = some hd.dh then skips s hd.n
  else skips s hd.pn + hd.n

theorem Shows.stored_iff {p : Party Priv (Bytes 32) (List UInt8) (Bytes 32) (Bytes 32)}
    (h : Shows s p) (hd : Ratchet.Header (Bytes 32)) :
    Stored s hd ↔ p.skipped hd.dh hd.n ≠ none := by
  rw [Stored, h.skipped, ne_eq, Option.map_eq_none_iff]

/-- Using up a stored key. -/
theorem Shows.forget {p : Party Priv (Bytes 32) (List UInt8) (Bytes 32) (Bytes 32)}
    (h : Shows s p) (d : Bytes 32) (n : ℕ) :
    Shows { s with skippedMessageKeys := s.skippedMessageKeys.erase (skipKey d.1 n) }
      (p.forget d n) := by
  refine ⟨h.self, h.remote, h.rk, h.cks, h.ckr, h.ns, h.nr, h.pn, fun d' n' => ?_⟩
  rw [Dict.get?_erase, h.skipped]
  simp only [skipKey_eq_iff, Party.forget]
  split
  · rfl
  · rfl

variable (full) in
/-- Turned to the header, the session stands for the party turned to it. -/
theorem Shows.turnTo {p : Party Priv (Bytes 32) (List UInt8) (Bytes 32) (Bytes 32)}
    (h : Shows s p) {hd : Ratchet.Header (Bytes 32)} (generated : Priv)
    (hfar : s.dhRemote ≠ some hd.dh → ¬ TooFar s hd.pn)
    (hexchange : s.dhRemote ≠ some hd.dh → ∃ z z', C.exchange p.self hd.dh = some z ∧
      C.exchange generated hd.dh = some z')
    (hroom : full → s.dhRemote ≠ some hd.dh →
      s.skippedMessageKeys.size + skips s hd.pn ≤ 1000) :
    ∃ s', turnTo C hd.dh hd.pn generated s = .ok () s' ∧
      Keeps full s' (p.turn C.kdf hd generated) ∧
      (s.dhRemote = some hd.dh ∧ s' = s ∨
        s.dhRemote ≠ some hd.dh ∧ s'.dhRemote = some hd.dh ∧ s'.seqRecv = 0 ∧
          s'.skippedMessageKeys.size ≤ s.skippedMessageKeys.size + skips s hd.pn) := by
  have hrem : s.dhRemote = p.remote := h.remote
  by_cases hd' : s.dhRemote = some hd.dh
  · have hturn : p.turn C.kdf hd generated = p := by
      rw [Party.turn, if_pos (hd'.symm.trans hrem)]
    rw [hturn]
    exact ⟨s, turnTo_of_eq C hd' _ _, h.keeps full, Or.inl ⟨hd', rfl⟩⟩
  · have hturn : p.turn C.kdf hd generated = (p.skip C.kdf hd.pn).ratchet C.kdf hd.dh generated := by
      rw [Party.turn, if_neg fun hx => hd' (hrem.trans hx.symm)]
    obtain ⟨z, z', hz, hz'⟩ := hexchange hd'
    rw [← Party.skip_self C.kdf p hd.pn] at hz
    obtain ⟨s₁, hs₁, hk₁, hsize₁⟩ := (h.keeps full).skipMessages (C := C) (hfar hd')
      fun hfull => hroom hfull hd'
    obtain ⟨s₂, hs₂, hk₂, hsame, hd₂, hnr₂⟩ := hk₁.ratchetStep hz hz'
    rw [hturn]
    refine ⟨s₂, ?_, hk₂, Or.inr ⟨hd', hd₂, hnr₂, hsame ▸ hsize₁⟩⟩
    rw [turnTo_of_ne C hd', EStateM.apply_bind, hs₁]
    exact hs₂

/-- **Bridge.** Where nothing is refused and the exchanges succeed, `decrypt`
returns the key the abstract ratchet takes, and leaves the session standing for
the party after it; no stored key is lost if there is room for all. -/
theorem decrypt_keeps {p p' : Party Priv (Bytes 32) (List UInt8) (Bytes 32) (Bytes 32)}
    (h : Shows s p) {hd : Ratchet.Header (Bytes 32)} {generated : Priv} {key : Bytes 32}
    (hwithin : WithinSkip s hd)
    (hexchange : ¬ Stored s hd → s.dhRemote ≠ some hd.dh →
      ∃ z z', C.exchange p.self hd.dh = some z ∧ C.exchange generated hd.dh = some z')
    (hroom : full → s.skippedMessageKeys.size + skipsTo s hd ≤ 1000)
    (hrecv : p.recv C.kdf hd generated = (some key, p')) :
    ∃ s', decrypt C hd.dh.1 hd.n hd.pn generated s = .ok key.1 s' ∧ Keeps full s' p' := by
  by_cases hst : Stored s hd
  · -- the stored text is the key in hexadecimal
    obtain ⟨mk, hmk⟩ := Option.ne_none_iff_exists'.mp ((h.stored_iff hd).mp hst)
    have hget := h.skipped hd.dh hd.n
    rw [hmk, Option.map_some] at hget
    unfold Party.recv at hrecv
    rw [hmk] at hrecv
    obtain ⟨hkey, rfl⟩ := Prod.mk.inj hrecv
    obtain rfl := Option.some.inj hkey
    refine ⟨_, ?_, (h.forget hd.dh hd.n).keeps full⟩
    rw [decrypt_of_stored C hget, bytesFromHex, fromHex_toHex]
    rfl
  · have hmiss : p.skipped hd.dh hd.n = none := not_not.mp fun hx => hst ((h.stored_iff hd).mpr hx)
    have hget : s.skippedMessageKeys.get? (skipKey hd.dh.1 hd.n) = none := not_not.mp hst
    have hbound := hwithin hst
    obtain ⟨s₁, hs₁, hk₁, hcase⟩ := h.turnTo (C := C) full generated
      (fun hne => by rw [if_neg hne] at hbound; exact hbound.1) (hexchange hst)
      (fun hfull hne => by
        have := hroom hfull
        rw [skipsTo, if_neg hst, if_neg hne] at this
        omega)
    -- what is left to skip in the chain the session is turned to
    have hnext : ¬ TooFar s₁ hd.n ∧
        (full → s₁.skippedMessageKeys.size + skips s₁ hd.n ≤ 1000) := by
      rcases hcase with ⟨hd', rfl⟩ | ⟨hd', hd₁, hnr₁, hsize₁⟩
      · rw [if_pos hd'] at hbound
        refine ⟨hbound, fun hfull => ?_⟩
        have := hroom hfull
        rwa [skipsTo, if_neg hst, if_pos hd'] at this
      · rw [if_neg hd'] at hbound
        have hle : skips s₁ hd.n ≤ hd.n := by
          unfold skips
          split
          · exact Nat.sub_le _ _
          · exact Nat.zero_le _
        refine ⟨fun hfar => ?_, fun hfull => ?_⟩
        · have := hfar.2.2
          rw [hnr₁] at this
          omega
        · have := hroom hfull
          rw [skipsTo, if_neg hst, if_neg hd'] at this
          omega
    obtain ⟨s₂, hs₂, hk₂, -⟩ := hk₁.skipMessages (C := C) hnext.1 hnext.2
    have hrun : decrypt C hd.dh.1 hd.n hd.pn generated s = takeKey C s₂ := by
      simp only [decrypt_of_miss C hget, EStateM.apply_bind, hs₁, hs₂]
    rw [hrun]
    unfold Party.recv at hrecv
    rw [hmiss] at hrecv
    dsimp only at hrecv
    obtain ⟨kept, hkept, hall, hs⟩ := hk₂
    have hckr : s₂.receivingChainKey =
        (Party.skip C.kdf (p.turn C.kdf hd generated) hd.n).ckr := hs.ckr
    cases hck : (Party.skip C.kdf (p.turn C.kdf hd generated) hd.n).ckr with
    | none =>
      rw [hck] at hrecv
      cases hrecv
    | some ck =>
      rw [hck] at hrecv hckr
      obtain ⟨hkey, rfl⟩ := Prod.mk.inj hrecv
      obtain rfl := Option.some.inj hkey
      refine ⟨_, takeKey_of_some C hckr, kept, hkept, hall, ?_⟩
      exact ⟨hs.self, hs.remote, hs.rk, hs.cks, rfl, hs.ns, congrArg (· + 1) hs.nr, hs.pn,
        hs.skipped⟩

end

end AnonyMus.Python
