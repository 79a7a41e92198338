import AnonyMus.Lib.Ratchet
import Mathlib.Data.List.Nodup
import Mathlib.Data.List.Perm.Subperm

/-!
# No message key is derived twice

One party of a double ratchet whose key derivations do not collide, whatever
peer keys it is made to ratchet onto. Its root keys form one sequence, each
step of which opens a chain; a `Spot` is a message number in a chain of that
sequence.

* `Free` — derivations do not collide;
* `keyOf_injective` — spots of one sequence have distinct message keys;
* `Fresh` — the party's chains are ahead of every message key in a list, with
  one lemma for each move: `Fresh.send`, `Fresh.recv`, `Fresh.ratchet`.
-/

namespace Ratchet

variable {Priv Pub Dh RK CK MK : Type} (K : Kdf Priv Pub Dh RK CK MK)

/-- Distinct derivations from the root key `rk₀` give distinct keys. -/
structure Free (rk₀ : RK) : Prop where
  start : ∀ rk d, (K.kdfRk rk d).1 ≠ rk₀
  root  : ∀ rk d rk' d', (K.kdfRk rk d).1 = (K.kdfRk rk' d').1 → rk = rk'
  chain : ∀ rk d rk' d', (K.kdfRk rk d).2 = (K.kdfRk rk' d').2 → rk = rk'
  opens : ∀ ck rk d, (K.kdfCk ck).2 ≠ (K.kdfRk rk d).2
  next  : ∀ ck ck', (K.kdfCk ck).2 = (K.kdfCk ck').2 → ck = ck'
  key   : ∀ ck ck', (K.kdfCk ck).1 = (K.kdfCk ck').1 → ck = ck'

/-! ## The sequence of root keys -/

/-- The root key after the shared secrets of `past`, latest first. -/
def rootAt (rk₀ : RK) : List Dh → RK
  | [] => rk₀
  | d :: past => (K.kdfRk (rootAt rk₀ past) d).1

/-- A message number in the chain that the last secret of `link :: past` opens. -/
structure Spot (Dh : Type) where
  link : Dh
  past : List Dh
  n    : Nat

namespace Spot

def chain (a : Spot Dh) : List Dh := a.link :: a.past

def succ (a : Spot Dh) : Spot Dh := { a with n := a.n + 1 }

def ckOf (rk₀ : RK) (a : Spot Dh) : CK := K.ckAt (K.kdfRk (rootAt K rk₀ a.past) a.link).2 a.n

def keyOf (rk₀ : RK) (a : Spot Dh) : MK := (K.kdfCk (a.ckOf K rk₀)).1

@[simp] theorem chain_succ (a : Spot Dh) : a.succ.chain = a.chain := rfl

@[simp] theorem n_succ (a : Spot Dh) : a.succ.n = a.n + 1 := rfl

end Spot

section

variable {K} {rk₀ : RK}

theorem length_eq_of_rootAt (hK : Free K rk₀) {h h' : List Dh}
    (heq : rootAt K rk₀ h = rootAt K rk₀ h') : h.length = h'.length := by
  induction h generalizing h' with
  | nil =>
    cases h' with
    | nil => rfl
    | cons d h' => exact absurd heq.symm (hK.start _ _)
  | cons d h ih =>
    cases h' with
    | nil => exact absurd heq (hK.start _ _)
    | cons d' h' => rw [List.length_cons, List.length_cons, ih (hK.root _ _ _ _ heq)]

/-- Positions of chains that share a chain key are equal. -/
theorem ckAt_injective (hK : Free K rk₀) {rk rk' : RK} {d d' : Dh} {n n' : Nat}
    (heq : K.ckAt (K.kdfRk rk d).2 n = K.ckAt (K.kdfRk rk' d').2 n') : rk = rk' ∧ n = n' := by
  induction n generalizing n' with
  | zero =>
    cases n' with
    | zero => exact ⟨hK.chain _ _ _ _ heq, rfl⟩
    | succ n' => exact absurd heq.symm (hK.opens _ _ _)
  | succ n ih =>
    cases n' with
    | zero => exact absurd heq (hK.opens _ _ _)
    | succ n' =>
      obtain ⟨hrk, hn⟩ := ih (hK.next _ _ heq)
      exact ⟨hrk, congrArg (· + 1) hn⟩

theorem suffix_eq_of_length {h h' hist : List Dh} (hs : h <:+ hist) (hs' : h' <:+ hist)
    (hlen : h.length = h'.length) : h = h' :=
  (List.suffix_of_suffix_length_le hs hs' (Nat.le_of_eq hlen)).eq_of_length hlen

/-- Within one sequence of root keys a message key has one place. -/
theorem keyOf_injective (hK : Free K rk₀) {hist : List Dh} {a b : Spot Dh}
    (ha : a.chain <:+ hist) (hb : b.chain <:+ hist) (heq : a.keyOf K rk₀ = b.keyOf K rk₀) :
    a.chain = b.chain ∧ a.n = b.n := by
  obtain ⟨hrk, hn⟩ := ckAt_injective hK (hK.key _ _ heq)
  have hlen := length_eq_of_rootAt hK hrk
  exact ⟨suffix_eq_of_length ha hb (by simp [Spot.chain, hlen]), hn⟩

end

/-! ## Chains ahead of the keys already derived -/

/-- The keys of a party, with its history and the places of its two chains. -/
structure Tracks (rk₀ rk : RK) (cks ckr : Option CK) (hist : List Dh)
    (snd rcv : Option (Spot Dh)) : Prop where
  root   : rk = rootAt K rk₀ hist
  cks    : cks = snd.map (·.ckOf K rk₀)
  ckr    : ckr = rcv.map (·.ckOf K rk₀)
  sndMem : ∀ a ∈ snd, a.chain <:+ hist
  rcvMem : ∀ b ∈ rcv, b.chain <:+ hist
  apart  : ∀ a ∈ snd, ∀ b ∈ rcv, a.chain ≠ b.chain

/-- The message key lies behind both chains. -/
def Passed (rk₀ : RK) (hist : List Dh) (snd rcv : Option (Spot Dh)) (key : MK) : Prop :=
  ∃ c : Spot Dh, key = c.keyOf K rk₀ ∧ c.chain <:+ hist ∧
    (∀ a ∈ snd, a.chain = c.chain → c.n < a.n) ∧ ∀ b ∈ rcv, b.chain = c.chain → c.n < b.n

/-- The keys in the list are distinct and none of them will be derived again. -/
def Fresh (rk₀ rk : RK) (cks ckr : Option CK) (keys : List MK) : Prop :=
  ∃ hist snd rcv, Tracks K rk₀ rk cks ckr hist snd rcv ∧ keys.Nodup ∧
    ∀ key ∈ keys, Passed K rk₀ hist snd rcv key

namespace Fresh

variable {K} {rk₀ rk : RK} {cks ckr : Option CK} {keys : List MK}

theorem initReceiver : Fresh K rk₀ rk₀ none none [] :=
  ⟨[], none, none, ⟨rfl, rfl, rfl, by simp, by simp, by simp⟩, List.nodup_nil, by simp⟩

theorem initSender (d : Dh) :
    Fresh K rk₀ (K.kdfRk rk₀ d).1 (some (K.kdfRk rk₀ d).2) none [] :=
  ⟨[d], some ⟨d, [], 0⟩, none, ⟨rfl, rfl, rfl, by simp [Spot.chain], by simp, by simp⟩,
    List.nodup_nil, by simp⟩

/-- The two chains play the same part. -/
theorem swap (h : Fresh K rk₀ rk cks ckr keys) : Fresh K rk₀ rk ckr cks keys := by
  obtain ⟨hist, snd, rcv, ht, hnd, hpass⟩ := h
  refine ⟨hist, rcv, snd, ⟨ht.root, ht.ckr, ht.cks, ht.rcvMem, ht.sndMem,
    fun b hb a ha => (ht.apart a ha b hb).symm⟩, hnd, fun key hkey => ?_⟩
  obtain ⟨c, hc, hmem, hsnd, hrcv⟩ := hpass key hkey
  exact ⟨c, hc, hmem, hrcv, hsnd⟩

/-- Forgetting keys. -/
theorem sub (h : Fresh K rk₀ rk cks ckr keys) {keys' : List MK} (hsub : keys'.Subperm keys) :
    Fresh K rk₀ rk cks ckr keys' := by
  obtain ⟨hist, snd, rcv, ht, hnd, hpass⟩ := h
  obtain ⟨l, hperm, hsublist⟩ := hsub
  exact ⟨hist, snd, rcv, ht, hperm.nodup (hnd.sublist hsublist),
    fun key hkey => hpass key (hsublist.subset (hperm.symm.subset hkey))⟩

/-- One step of the sending chain derives a new key. -/
theorem send (hK : Free K rk₀) {ck : CK} (h : Fresh K rk₀ rk (some ck) ckr keys) :
    Fresh K rk₀ rk (some (K.kdfCk ck).2) ckr ((K.kdfCk ck).1 :: keys) := by
  obtain ⟨hist, snd, rcv, ht, hnd, hpass⟩ := h
  obtain ⟨a, rfl, rfl⟩ := Option.map_eq_some_iff.mp ht.cks.symm
  have ha := ht.sndMem a rfl
  refine ⟨hist, some a.succ, rcv, ⟨ht.root, rfl, ht.ckr, by simpa using ha, ht.rcvMem,
    by simpa using ht.apart a rfl⟩, List.nodup_cons.mpr ⟨fun hmem => ?_, hnd⟩, ?_⟩
  · -- a key behind the chain is not the one at its head
    obtain ⟨c, hc, hmem, hsnd, -⟩ := hpass _ hmem
    obtain ⟨hchain, hn⟩ := keyOf_injective hK ha hmem hc
    have := hsnd a rfl hchain
    omega
  · intro key hkey
    rcases List.mem_cons.mp hkey with rfl | hkey
    · refine ⟨a, rfl, ha, ?_, fun b hb hchain => absurd hchain.symm (ht.apart a rfl b hb)⟩
      rintro _ ⟨⟩ -
      exact Nat.lt_succ_self _
    · obtain ⟨c, hc, hmem, hsnd, hrcv⟩ := hpass key hkey
      refine ⟨c, hc, hmem, ?_, hrcv⟩
      rintro _ ⟨⟩ hchain
      exact Nat.lt_succ_of_lt (hsnd a rfl hchain)

/-- One step of the receiving chain derives a new key. -/
theorem recv (hK : Free K rk₀) {ck : CK} (h : Fresh K rk₀ rk cks (some ck) keys) :
    Fresh K rk₀ rk cks (some (K.kdfCk ck).2) ((K.kdfCk ck).1 :: keys) :=
  (send hK h.swap).swap

/-- A ratchet step, onto any peer key, opens two chains of which no key was
derived yet. -/
theorem ratchet (h : Fresh K rk₀ rk cks ckr keys) (d d' : Dh) :
    Fresh K rk₀ (K.kdfRk (K.kdfRk rk d).1 d').1 (some (K.kdfRk (K.kdfRk rk d).1 d').2)
      (some (K.kdfRk rk d).2) keys := by
  obtain ⟨hist, snd, rcv, ht, hnd, hpass⟩ := h
  have hroot := ht.root
  subst hroot
  refine ⟨d' :: d :: hist, some ⟨d', d :: hist, 0⟩, some ⟨d, hist, 0⟩,
    ⟨rfl, rfl, rfl, ?_, ?_, ?_⟩, hnd, fun key hkey => ?_⟩
  · rintro _ ⟨⟩
    exact List.suffix_refl _
  · rintro _ ⟨⟩
    exact List.suffix_cons _ _
  · rintro _ ⟨⟩ _ ⟨⟩ heq
    exact absurd (congrArg List.length heq) (by simp [Spot.chain])
  · obtain ⟨c, hc, hmem, -, -⟩ := hpass key hkey
    -- the new chains are longer than every earlier one
    have hlen := hmem.length_le
    refine ⟨c, hc, hmem.trans ((List.suffix_cons _ _).trans (List.suffix_cons _ _)), ?_, ?_⟩
    · rintro _ ⟨⟩ heq
      have := congrArg List.length heq
      simp only [Spot.chain, List.length_cons] at this hlen
      omega
    · rintro _ ⟨⟩ heq
      have := congrArg List.length heq
      simp only [Spot.chain, List.length_cons] at this hlen
      omega

theorem nodup (h : Fresh K rk₀ rk cks ckr keys) : keys.Nodup := by
  obtain ⟨-, -, -, -, hnd, -⟩ := h
  exact hnd

end Fresh

end Ratchet
