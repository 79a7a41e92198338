import AnonyMus.Lib.Turns
import AnonyMus.TypeScript.Session

/-!
# TypeScript SDK — overlapping sends

`DoubleRatchetSession.encrypt` waits twice: for the derived keys, before it
stores the next chain key, and for the export of its public key, before it takes
its number. Calls on one session, such as those of two `sendMessage` that are
not awaited one after the other, take these three turns in any order.

* `Shared`, `resume`, `resumeAll` — calls of `encrypt` on one session;
* `Stands.resume` — a turn of a call is a turn of `Turns`;
* `messageKeys_distinct_iff` — the message keys differ just if the calls are disjoint;
* `messageKeys_numbered_iff` — every key is that of its number just if, moreover,
  the numbers are taken in the order in which the chain keys were stored.
-/

namespace AnonyMus.TypeScript

open Binary64 (round64 round64_of_le)

/-- How far a call of `encrypt` has got, by what it waits for. -/
inductive EncryptCall
  | idle
  | hkdf (sendingChainKey : Bytes 32)
  | exportKey (messageKey myPubBytes : Bytes 32)
  | done (messageKey myPubBytes : Bytes 32) (seq prevChainLen : ℕ)
  | failed (e : SdkError)
deriving DecidableEq

/-- One session and the calls of `encrypt` on it. -/
structure Shared (Priv : Type) where
  session : DoubleRatchetSession Priv
  calls   : ℕ → EncryptCall

section

variable {Priv : Type} (C : Subtle Priv)

/-- Call `i` runs on to its next wait, or to its end. -/
def resume (w : Shared Priv) (i : ℕ) : Shared Priv :=
  match w.calls i with
  | .idle =>
    match readChain w.session with
    | .ok sendingChainKey => { w with calls := Function.update w.calls i (.hkdf sendingChainKey) }
    | .error e => { w with calls := Function.update w.calls i (.failed e) }
  | .hkdf sendingChainKey =>
    match storeChain C sendingChainKey w.session with
    | .ok (messageKey, myPubBytes) session =>
      ⟨session, Function.update w.calls i (.exportKey messageKey myPubBytes)⟩
    | .error e session => ⟨session, Function.update w.calls i (.failed e)⟩
  | .exportKey messageKey myPubBytes =>
    match takeSeq w.session with
    | .ok (seq, prevChainLen) session =>
      ⟨session, Function.update w.calls i (.done messageKey myPubBytes seq prevChainLen)⟩
    | .error e session => ⟨session, Function.update w.calls i (.failed e)⟩
  | .done .. | .failed _ => w

def resumeAll (σ : List ℕ) (w : Shared Priv) : Shared Priv := σ.foldl (resume C) w

/-- No call has begun. -/
def Shared.start (s : DoubleRatchetSession Priv) : Shared Priv := ⟨s, fun _ => .idle⟩

/-- Every call that began has returned. -/
def Shared.Returned (w : Shared Priv) : Prop :=
  ∀ i, w.calls i = .idle ∨ ∃ key pub seq pn, w.calls i = .done key pub seq pn

/-! ## The calls as calls that read, store and number -/

/-- What a call has that has read the chain key of its phase. -/
def callOf (pub : Bytes 32) (prevChainLen : ℕ) : Turns.Phase (Bytes 32) → EncryptCall
  | .idle => .idle
  | .read ck => .hkdf ck
  | .stored ck => .exportKey (chainRatchet C ck).1 pub
  | .done ck seq => .done (chainRatchet C ck).1 pub seq prevChainLen

/-- The shared session stands for a cell and a counter: the sending chain key and `seqSend`. -/
structure Stands (pub : Bytes 32) (prevChainLen : ℕ) (w : Shared Priv)
    (t : Turns.State (Bytes 32)) : Prop where
  cell    : w.session.sendingChainKey = some t.cell
  counter : w.session.seqSend = t.counter
  own     : w.session.dhPublicKey = some pub
  prev    : w.session.prevChainLength = prevChainLen
  calls   : ∀ i, w.calls i = callOf C pub prevChainLen (t.phase i)

variable {C} {pub : Bytes 32} {prevChainLen : ℕ} {w : Shared Priv} {t : Turns.State (Bytes 32)}

/-- The step of the chain key. -/
abbrev nextChain (C : Subtle Priv) (ck : Bytes 32) : Bytes 32 := (chainRatchet C ck).2

theorem callOf_update {calls : ℕ → EncryptCall} {phase : ℕ → Turns.Phase (Bytes 32)}
    (h : ∀ j, calls j = callOf C pub prevChainLen (phase j)) (i : ℕ)
    (p : Turns.Phase (Bytes 32)) (j : ℕ) :
    Function.update calls i (callOf C pub prevChainLen p) j =
      callOf C pub prevChainLen (Function.update phase i p j) := by
  by_cases hj : j = i
  · rw [hj, Function.update_self, Function.update_self]
  · rw [Function.update_of_ne hj, Function.update_of_ne hj]
    exact h j

theorem storeChain_of_own {s : DoubleRatchetSession Priv} (hown : s.dhPublicKey = some pub)
    (ck : Bytes 32) :
    storeChain C ck s = .ok ((chainRatchet C ck).1, pub)
      { s with sendingChainKey := some (chainRatchet C ck).2 } := by
  simp only [storeChain, EStateM.apply_bind, EStateM.apply_modify, EStateM.apply_get, hown,
    EStateM.apply_pure]

theorem takeSeq_eq (s : DoubleRatchetSession Priv) :
    takeSeq s = .ok (s.seqSend, s.prevChainLength)
      { s with seqSend := round64 (s.seqSend + 1) } := rfl

/-- One turn of a call. -/
theorem Stands.resume (h : Stands C pub prevChainLen w t) (i : ℕ) (hcounter : t.counter < 2 ^ 53) :
    Stands C pub prevChainLen (resume C w i) (Turns.turn (nextChain C) t i) := by
  have hcall := h.calls i
  rw [TypeScript.resume, Turns.turn]
  cases hphase : t.phase i with
  | idle =>
    rw [hphase] at hcall
    rw [hcall]
    have hread : readChain w.session = .ok t.cell := by rw [readChain, h.cell]
    simp only [callOf, hread]
    exact ⟨h.cell, h.counter, h.own, h.prev, callOf_update h.calls i (.read t.cell)⟩
  | read ck =>
    rw [hphase] at hcall
    rw [hcall]
    simp only [callOf, storeChain_of_own h.own]
    exact ⟨rfl, h.counter, h.own, h.prev, callOf_update h.calls i (.stored ck)⟩
  | stored ck =>
    rw [hphase] at hcall
    rw [hcall]
    have hround : round64 (w.session.seqSend + 1) = t.counter + 1 := by
      rw [h.counter, round64_of_le hcounter]
    simp only [callOf, takeSeq_eq, hround]
    rw [h.counter, h.prev]
    exact ⟨h.cell, rfl, h.own, rfl, callOf_update h.calls i (.done ck t.counter)⟩
  | done ck seq =>
    rw [hphase] at hcall
    rw [hcall]
    exact h

theorem Stands.resumeAll (h : Stands C pub prevChainLen w t) (σ : List ℕ)
    (hcounter : t.counter + σ.length ≤ 2 ^ 53) :
    Stands C pub prevChainLen (resumeAll C σ w) (Turns.run (nextChain C) σ t) := by
  induction σ generalizing w t with
  | nil => exact h
  | cons i σ ih =>
    rw [List.length_cons] at hcounter
    have hle := Turns.counter_turn_le (nextChain C) t i
    exact ih (h.resume i (by omega)) (by omega)

theorem Stands.returned (h : Stands C pub prevChainLen w t) (hreturned : w.Returned) :
    Turns.Settled t := by
  intro i
  have hcall := h.calls i
  cases hphase : t.phase i with
  | idle => exact .inl rfl
  | done ck seq => exact .inr ⟨ck, seq, rfl⟩
  | read ck | stored ck =>
    rw [hphase] at hcall
    rcases hreturned i with hidle | ⟨key, pub', seq, pn, hdone⟩
    · rw [hcall] at hidle
      cases hidle
    · rw [hcall] at hdone
      cases hdone

/-- A call that has returned has read a chain key and derived its message key from it. -/
theorem Stands.done_iff (h : Stands C pub prevChainLen w t) {i seq pn : ℕ} {key pub' : Bytes 32} :
    w.calls i = .done key pub' seq pn ↔
      ∃ ck, t.phase i = .done ck seq ∧ key = (chainRatchet C ck).1 ∧ pub' = pub ∧
        pn = prevChainLen := by
  rw [h.calls i]
  cases t.phase i with
  | idle | read _ | stored _ =>
    refine iff_of_false ?_ ?_
    · rintro ⟨⟩
    · rintro ⟨_, ⟨⟩, _⟩
  | done ck n =>
    constructor
    · rintro ⟨⟩
      exact ⟨ck, rfl, rfl, rfl, rfl⟩
    · rintro ⟨_, ⟨⟩, rfl, rfl, rfl⟩
      rfl

theorem ckAt_eq_iterate (ck : Bytes 32) (n : ℕ) : C.kdf.ckAt ck n = (nextChain C)^[n] ck := by
  induction n with
  | zero => rfl
  | succ n ih =>
    rw [Function.iterate_succ_apply', ← ih]
    rfl

theorem mkAt_eq_iterate (ck : Bytes 32) (n : ℕ) :
    C.kdf.mkAt ck n = (chainRatchet C ((nextChain C)^[n] ck)).1 := by
  rw [← ckAt_eq_iterate]
  rfl

/-! ## Which schedules are safe -/

section

variable {s : DoubleRatchetSession Priv} {ck : Bytes 32} {σ : List ℕ}

theorem stands_start (hck : s.sendingChainKey = some ck) (hpub : s.dhPublicKey = some pub) :
    Stands C pub s.prevChainLength (Shared.start s) (Turns.start ck s.seqSend) :=
  ⟨hck, rfl, hpub, rfl, fun _ => rfl⟩

/-- No two calls that have returned hold the same message key. -/
def Shared.DistinctKeys (w : Shared Priv) : Prop :=
  ∀ i j key d n pn d' n' pn', w.calls i = .done key d n pn →
    w.calls j = .done key d' n' pn' → i = j

/-- **Distinct keys.** Overlapping calls of `encrypt` that have all returned hold
different message keys just if none read the chain key before another had stored its next. -/
theorem messageKeys_distinct_iff (hck : s.sendingChainKey = some ck)
    (hpub : s.dhPublicKey = some pub) (hseq : s.seqSend + σ.length ≤ 2 ^ 53)
    (hkdf : ∀ k < σ.length, ∀ l < σ.length, C.kdf.mkAt ck k = C.kdf.mkAt ck l → k = l)
    (hreturned : (resumeAll C σ (Shared.start s)).Returned) :
    (resumeAll C σ (Shared.start s)).DistinctKeys ↔ Turns.Disjoint [] σ := by
  have hstands := (stands_start (C := C) hck hpub).resumeAll σ hseq
  simp only [mkAt_eq_iterate] at hkdf
  rw [← Turns.distinct_iff_disjoint (g := fun ck => (chainRatchet C ck).1) hkdf
    (hstands.returned hreturned)]
  constructor
  · intro hkeys i j v u n m hi hj hvu
    exact hkeys i j _ _ _ _ _ _ _ (hstands.done_iff.mpr ⟨v, hi, rfl, rfl, rfl⟩)
      (hstands.done_iff.mpr ⟨u, hj, hvu, rfl, rfl⟩)
  · intro hvalues i j key d n pn d' n' pn' hi hj
    obtain ⟨v, hv, hkey, -, -⟩ := hstands.done_iff.mp hi
    obtain ⟨u, hu, hkey', -, -⟩ := hstands.done_iff.mp hj
    exact hvalues i j v u n n' hv hu (hkey.symm.trans hkey')

def sampleSession : DoubleRatchetSession UInt8 where
  dhPrivateKey := some 1
  dhPublicKey := some (Bytes.replicate 32 1)
  dhRemotePublicKey := some (Bytes.replicate 32 2)
  rootKey := some []
  sendingChainKey := some (Bytes.replicate 32 5)
  receivingChainKey := none
  seqSend := 3
  seqRecv := 0
  prevChainLength := 0
  skippedMessageKeys := Dict.empty

/-- Two calls, of which the second overtakes the first after both have stored. -/
theorem sampleSession_returned :
    (resumeAll sampleSubtle [0, 0, 1, 1, 1, 0] (Shared.start sampleSession)).Returned
  | 0 => .inr ⟨_, _, _, _, rfl⟩
  | 1 => .inr ⟨_, _, _, _, rfl⟩
  | _ + 2 => .inl rfl

theorem messageKeys_distinct_sample :
    (resumeAll sampleSubtle [0, 0, 1, 1, 1, 0] (Shared.start sampleSession)).DistinctKeys :=
  (messageKeys_distinct_iff rfl rfl (by decide) (by decide +kernel) sampleSession_returned).mpr
    (by decide)

/-- **Numbered keys.** They hold each the key that the chain has for their number just if,
moreover, they took their numbers in the order in which they stored the chain key. -/
theorem messageKeys_numbered_iff (hck : s.sendingChainKey = some ck)
    (hpub : s.dhPublicKey = some pub) (hseq : s.seqSend + σ.length ≤ 2 ^ 53)
    (hkdf : ∀ k < σ.length, ∀ l < σ.length, C.kdf.mkAt ck k = C.kdf.mkAt ck l → k = l)
    (hreturned : (resumeAll C σ (Shared.start s)).Returned) :
    (∀ i key d k pn,
      (resumeAll C σ (Shared.start s)).calls i = .done key d (s.seqSend + k) pn →
      key = C.kdf.mkAt ck k) ↔
    Turns.Disjoint [] σ ∧ Turns.takers 1 [] σ = Turns.takers 2 [] σ := by
  have hstands := (stands_start (C := C) hck hpub).resumeAll σ hseq
  simp only [mkAt_eq_iterate] at hkdf ⊢
  rw [← Turns.numbered_iff (g := fun ck => (chainRatchet C ck).1) hkdf
    (hstands.returned hreturned)]
  constructor
  · intro hkeys i v k hi
    exact hkeys i _ _ k _ (hstands.done_iff.mpr ⟨v, hi, rfl, rfl, rfl⟩)
  · intro hvalues i key d k pn hi
    obtain ⟨v, hv, hkey, -, -⟩ := hstands.done_iff.mp hi
    exact hkey.trans (hvalues i v k hv)

theorem messageKeys_numbered_sample :
    ¬ ∀ i key d k pn,
      (resumeAll sampleSubtle [0, 0, 1, 1, 1, 0] (Shared.start sampleSession)).calls i =
        .done key d (sampleSession.seqSend + k) pn →
      key = sampleSubtle.kdf.mkAt (Bytes.replicate 32 5) k := by
  rw [messageKeys_numbered_iff rfl rfl (by decide) (by decide +kernel) sampleSession_returned]
  decide

end

end

end AnonyMus.TypeScript
