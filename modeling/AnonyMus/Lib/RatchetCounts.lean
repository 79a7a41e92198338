import AnonyMus.Lib.RatchetOnce

/-!
# Message numbers are bounded by the log

An implementation counts messages in numbers of its own. No counter of a party
and no number in a header exceeds the number of messages that were sent.

* `Counted` — the bounds, with what a send and a delivery do to them;
* `counted_run`, `counted_nr` — along every run, for the numbers sent and received.
-/

namespace Ratchet

variable {Priv Pub Dh RK CK MK : Type} {K : Kdf Priv Pub Dh RK CK MK}
  {net : Net Priv Pub RK CK MK}

structure Counted (net : Net Priv Pub RK CK MK) : Prop where
  ns  : ∀ s, (net.party s).ns ≤ net.log.length
  pn  : ∀ s, (net.party s).pn ≤ net.log.length
  log : ∀ w ∈ net.log, w.header.n < net.log.length ∧ w.header.pn ≤ net.log.length

theorem Counted.init (rk : RK) (a b : Priv) : Counted (Net.init K rk a b) where
  ns s := by cases s <;> exact Nat.le_refl _
  pn s := by cases s <;> exact Nat.le_refl _
  log w hw := by cases hw

theorem Counted.send (h : Counted net) {s : Side} {key : MK} {hd : Header Pub}
    {p : Party Priv Pub RK CK MK} (hsend : (net.party s).send K = some (key, hd, p)) :
    Counted { net with
      party := Function.update net.party s p, log := net.log ++ [⟨s, hd, key⟩] } := by
  have hns := h.ns s
  have hpn := h.pn s
  rw [Party.send, Option.map_eq_some_iff] at hsend
  obtain ⟨ck, -, heq⟩ := hsend
  obtain ⟨-, heq⟩ := Prod.mk.inj heq
  obtain ⟨rfl, rfl⟩ := Prod.mk.inj heq
  constructor
  case ns =>
    intro s'
    have hns' := h.ns s'
    rw [List.length_append, List.length_singleton]
    dsimp only
    by_cases hs : s' = s
    · subst hs
      rw [Function.update_self]
      dsimp only
      omega
    · rw [Function.update_of_ne hs]
      omega
  case pn =>
    intro s'
    have hpn' := h.pn s'
    rw [List.length_append, List.length_singleton]
    dsimp only
    by_cases hs : s' = s
    · subst hs
      rw [Function.update_self]
      dsimp only
      omega
    · rw [Function.update_of_ne hs]
      omega
  case log =>
    intro w hw
    rw [List.length_append, List.length_singleton]
    rcases List.mem_append.mp hw with hw | hw
    · have := h.log w hw
      omega
    · obtain rfl := List.mem_singleton.mp hw
      dsimp only
      omega

variable [DecidableEq Pub]

theorem Counted.deliver (h : Counted net) (s : Side) (i : Nat) (hd : Header Pub) (fresh : Priv) :
    Counted (net.deliver K s i hd fresh) := by
  have hcounters := (net.party s).recv_counters K hd fresh
  have hns := h.ns s
  have hpn := h.pn s
  unfold Net.deliver
  constructor
  case ns =>
    intro s'
    dsimp only
    by_cases hs : s' = s
    · subst hs
      rw [Function.update_self]
      omega
    · rw [Function.update_of_ne hs]
      exact h.ns s'
  case pn =>
    intro s'
    dsimp only
    by_cases hs : s' = s
    · subst hs
      rw [Function.update_self]
      omega
    · rw [Function.update_of_ne hs]
      exact h.pn s'
  case log => exact h.log

theorem counted_run {rk : RK} {a b : Priv}
    (hrun : Relation.ReflTransGen (OnceStep K) (Net.init K rk a b) net) : Counted net := by
  induction hrun with
  | refl => exact Counted.init rk a b
  | tail _ hstep ih =>
    cases hstep with
    | send s hsend => exact ih.send hsend
    | recv s i fresh hlog hsrc hfresh honce => exact ih.deliver s i _ fresh

/-- No side has received more messages than were sent. -/
theorem counted_nr (hcomm : ∀ x y, K.dh x (K.pub y) = K.dh y (K.pub x)) {rk : RK} {a b : Priv}
    (hab : K.pub a ≠ K.pub b)
    (hrun : Relation.ReflTransGen (OnceStep K) (Net.init K rk a b) net) (s : Side) :
    (net.party s).nr ≤ net.log.length := by
  obtain ⟨⟨E, sent, stage, hinv⟩, -⟩ := once_run hcomm hab hrun
  have hcounted := counted_run hrun
  have hle := hinv.nr_le s
  have hns := hcounted.ns s.peer
  have hpn := hcounted.pn s.peer
  omega

end Ratchet
