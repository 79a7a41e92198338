import Mathlib.Data.List.Nodup
import Mathlib.Logic.Function.Basic

/-!
# The double ratchet, abstractly

One party of a double ratchet over arbitrary key types. The primitives are a
record of functions; nothing is assumed about them here.

* `Kdf.ckAt`, `Kdf.mkAt` — the chain key and the message key at a position of
  the chain that starts at a given chain key;
* `Party` — what one side stores, with message numbers as naturals and the
  skipped keys as a partial function;
* `Party.send`, `Party.recv` — one message out and one message in, with no
  bound on what is skipped or stored. An implementation that bounds either
  agrees with these as long as its bound is not met.
-/

namespace Ratchet

/-- The key-agreement and key-derivation primitives of a double ratchet. -/
structure Kdf (Priv Pub Dh RK CK MK : Type) where
  pub   : Priv → Pub
  dh    : Priv → Pub → Dh
  kdfRk : RK → Dh → RK × CK
  kdfCk : CK → MK × CK

variable {Priv Pub Dh RK CK MK : Type}

/-! ## Symmetric chains -/

namespace Kdf

variable (K : Kdf Priv Pub Dh RK CK MK)

/-- The chain key `n` steps into the chain. -/
def ckAt (ck : CK) : Nat → CK
  | 0 => ck
  | n + 1 => (K.kdfCk (ckAt ck n)).2

/-- The message key with number `n` of the chain. -/
def mkAt (ck : CK) (n : Nat) : MK := (K.kdfCk (K.ckAt ck n)).1

@[simp] theorem ckAt_zero (ck : CK) : K.ckAt ck 0 = ck := rfl

@[simp] theorem kdfCk_ckAt (ck : CK) (n : Nat) :
    K.kdfCk (K.ckAt ck n) = (K.mkAt ck n, K.ckAt ck (n + 1)) := rfl

theorem ckAt_ckAt (ck : CK) (m n : Nat) :
    K.ckAt (K.ckAt ck m) n = K.ckAt ck (m + n) := by
  induction n with
  | zero => rfl
  | succ n ih => rw [ckAt, ih, ← Nat.add_assoc, ckAt]

theorem mkAt_ckAt (ck : CK) (m n : Nat) :
    K.mkAt (K.ckAt ck m) n = K.mkAt ck (m + n) := by
  rw [mkAt, ckAt_ckAt, mkAt]

end Kdf

/-! ## One party -/

/-- What travels next to a ciphertext: the sender's ratchet key, the length of
its previous chain, the message number in the current one. -/
@[ext] structure Header (Pub : Type) where
  dh : Pub
  pn : Nat
  n  : Nat
deriving DecidableEq

@[ext] structure Party (Priv Pub RK CK MK : Type) where
  self    : Priv
  remote  : Option Pub
  rk      : RK
  cks     : Option CK
  ckr     : Option CK
  ns      : Nat
  nr      : Nat
  pn      : Nat
  skipped : Pub → Nat → Option MK

namespace Party

variable (K : Kdf Priv Pub Dh RK CK MK)

/-- The key and the header of the next message, if there is a sending chain. -/
def send (p : Party Priv Pub RK CK MK) :
    Option (MK × Header Pub × Party Priv Pub RK CK MK) :=
  p.cks.map fun ck =>
    ((K.kdfCk ck).1, ⟨K.pub p.self, p.pn, p.ns⟩,
      { p with cks := some (K.kdfCk ck).2, ns := p.ns + 1 })

/-- A Diffie-Hellman ratchet onto the peer key `d`, with `fresh` as the new
ratchet key of this side. -/
def ratchet (p : Party Priv Pub RK CK MK) (d : Pub) (fresh : Priv) :
    Party Priv Pub RK CK MK :=
  let recvStep := K.kdfRk p.rk (K.dh p.self d)
  let sendStep := K.kdfRk recvStep.1 (K.dh fresh d)
  { self := fresh, remote := some d, rk := sendStep.1, cks := some sendStep.2,
    ckr := some recvStep.2, ns := 0, nr := 0, pn := p.ns, skipped := p.skipped }

variable [DecidableEq Pub]

/-- Store the keys of the receiving chain up to `till`, exclusive. -/
def skip (p : Party Priv Pub RK CK MK) (till : Nat) : Party Priv Pub RK CK MK :=
  match p.ckr, p.remote with
  | some ck, some d =>
    { p with
      ckr := some (K.ckAt ck (till - p.nr)), nr := max p.nr till,
      skipped := fun d' n =>
        if d' = d ∧ p.nr ≤ n ∧ n < till then some (K.mkAt ck (n - p.nr))
        else p.skipped d' n }
  | _, _ => p

theorem skip_of_le {p : Party Priv Pub RK CK MK} {till : Nat} (h : till ≤ p.nr) :
    p.skip K till = p := by
  unfold skip
  split
  · rename_i ck d hck hd
    have h0 : till - p.nr = 0 := by omega
    ext1
    case skipped =>
      funext d' n
      exact if_neg (by omega)
    all_goals simp [hck, h0, Nat.max_eq_left h]
  · rfl

theorem skip_self (p : Party Priv Pub RK CK MK) (till : Nat) :
    (p.skip K till).self = p.self := by
  unfold skip
  split <;> rfl

/-- One round of the loop that skips. -/
theorem skip_step {p : Party Priv Pub RK CK MK} {till : Nat} {ck : CK} {d : Pub}
    (hck : p.ckr = some ck) (hd : p.remote = some d) (h : p.nr < till) :
    p.skip K till = skip K { p with
      ckr := some (K.kdfCk ck).2, nr := p.nr + 1,
      skipped := fun d' n =>
        if d' = d ∧ n = p.nr then some (K.kdfCk ck).1 else p.skipped d' n } till := by
  have hone : K.ckAt ck 1 = (K.kdfCk ck).2 := rfl
  have hzero : K.mkAt ck 0 = (K.kdfCk ck).1 := rfl
  simp only [skip, hck, hd, ← hone, K.ckAt_ckAt, K.mkAt_ckAt]
  ext1
  case ckr => simp only [show 1 + (till - (p.nr + 1)) = till - p.nr by omega]
  case nr => simp only; omega
  case skipped =>
    funext d' n
    dsimp only
    by_cases hd' : d' = d
    · subst hd'
      by_cases hn : n = p.nr
      · subst hn
        rw [if_pos ⟨rfl, Nat.le_refl _, h⟩, if_neg (by omega), if_pos ⟨rfl, rfl⟩,
          Nat.sub_self, hzero]
      · by_cases hin : p.nr + 1 ≤ n ∧ n < till
        · rw [if_pos ⟨rfl, by omega, hin.2⟩, if_pos ⟨rfl, hin⟩,
            show 1 + (n - (p.nr + 1)) = n - p.nr by omega]
        · rw [if_neg (by omega), if_neg (by omega), if_neg (by omega)]
    · simp [hd']
  all_goals rfl

/-- Forget one skipped key. -/
def forget (p : Party Priv Pub RK CK MK) (d : Pub) (n : Nat) :
    Party Priv Pub RK CK MK :=
  { p with skipped := fun d' n' => if d' = d ∧ n' = n then none else p.skipped d' n' }

/-- The receiving chain turned to the sender's current key. -/
def turn (p : Party Priv Pub RK CK MK) (h : Header Pub) (fresh : Priv) :
    Party Priv Pub RK CK MK :=
  if some h.dh = p.remote then p else ratchet K (skip K p h.pn) h.dh fresh

/-- The message key for `h`, and the party after it. -/
def recv (p : Party Priv Pub RK CK MK) (h : Header Pub) (fresh : Priv) :
    Option MK × Party Priv Pub RK CK MK :=
  match p.skipped h.dh h.n with
  | some key => (some key, p.forget h.dh h.n)
  | none =>
    let p' := skip K (turn K p h fresh) h.n
    match p'.ckr with
    | none => (none, p')
    | some ck =>
      (some (K.kdfCk ck).1, { p' with ckr := some (K.kdfCk ck).2, nr := p'.nr + 1 })

/-- Receiving either keeps the send counters or starts a new sending chain. -/
theorem recv_counters (p : Party Priv Pub RK CK MK) (h : Header Pub) (fresh : Priv) :
    (p.recv K h fresh).2.ns ≤ p.ns ∧ (p.recv K h fresh).2.pn ≤ max p.ns p.pn := by
  have hskip : ∀ (q : Party Priv Pub RK CK MK) (till : Nat),
      (q.skip K till).ns = q.ns ∧ (q.skip K till).pn = q.pn := by
    intro q till
    unfold skip
    split <;> exact ⟨rfl, rfl⟩
  have hturn : (p.turn K h fresh).ns ≤ p.ns ∧ (p.turn K h fresh).pn ≤ max p.ns p.pn := by
    unfold turn
    split
    · exact ⟨Nat.le_refl _, Nat.le_max_right ..⟩
    · refine ⟨Nat.zero_le _, ?_⟩
      simp only [ratchet, (hskip _ _).1]
      exact Nat.le_max_left ..
  unfold recv
  split
  · exact ⟨Nat.le_refl _, Nat.le_max_right ..⟩
  · dsimp only
    split <;> simpa only [(hskip _ _).1, (hskip _ _).2] using hturn

end Party

end Ratchet
