import AnonyMus.Lib.RatchetAgree

/-!
# At most one delivery per message

When no message is delivered twice and no skipped key is lost, every genuine
message can still be placed when it comes, however late: either its key is
stored, or its chain has not reached it. So every run of `OnceStep` is a run of
`Step`, and every delivery in it yields the sender's key.

* `Ready` — every undelivered message is timely;
* `once_run` — `Inv` and `Ready` along every run;
* `once_recv` — every delivery of such a run yields the sender's key.
-/

namespace Ratchet

variable {Priv Pub Dh RK CK MK : Type} [DecidableEq Pub] {K : Kdf Priv Pub Dh RK CK MK}
  {net : Net Priv Pub RK CK MK} {E : List (Epoch Priv RK CK)} {sent : Nat → Nat}
  {stage : Side → Nat}

/-! ## What a party keeps -/

theorem skipped_skip_ne_none {p : Party Priv Pub RK CK MK} {till : Nat} {d : Pub} {n : Nat}
    (h : p.skipped d n ≠ none) : (p.skip K till).skipped d n ≠ none := by
  unfold Party.skip
  split
  · dsimp only
    split
    · simp
    · exact h
  · exact h

theorem skipped_turn_ne_none {p : Party Priv Pub RK CK MK} {hd : Header Pub} {fresh : Priv}
    {d : Pub} {n : Nat} (h : p.skipped d n ≠ none) :
    (p.turn K hd fresh).skipped d n ≠ none := by
  unfold Party.turn
  split
  · exact h
  · exact skipped_skip_ne_none h

/-- The messages that a skip passes are stored. -/
theorem Stands.skip_covers {t : Nat} {p : Party Priv Pub RK CK MK}
    (h : Stands K E sent (t + 1) p) {e : Epoch Priv RK CK} {ck : CK} (he : E[t]? = some e)
    (hseed : e.seed = some ck) {m till : Nat} (hm : p.nr ≤ m) (hlt : m < till) :
    (p.skip K till).skipped (K.pub e.key) m ≠ none := by
  obtain ⟨h0, -⟩ | ⟨u, e₁, hu, he₁, hrem, hckr⟩ := h.other
  · exact absurd h0 (by omega)
  · obtain rfl : t = u := by omega
    obtain rfl : e = e₁ := by simpa [he] using he₁
    rw [hseed, Option.map_some] at hckr
    simp [Party.skip, hckr, hrem, hm, hlt]

/-! ## Readiness -/

/-- Every message not yet delivered can still be placed, and the messages of
the log have distinct headers. -/
structure Ready (net : Net Priv Pub RK CK MK) : Prop where
  timely   : ∀ (s : Side) (i : Nat) (w : Wire Pub MK), net.log[i]? = some w →
    w.src = s.peer → i ∉ net.done → net.Timely s w.header
  distinct : ∀ (i j : Nat) (w w' : Wire Pub MK), net.log[i]? = some w →
    net.log[j]? = some w' → w.header.dh = w'.header.dh → w.header.n = w'.header.n → i = j

omit [DecidableEq Pub] in
theorem Ready.init (rk : RK) (a b : Priv) : Ready (Net.init K rk a b) where
  timely s i w hw := by simp [Net.init] at hw
  distinct i j w w' hw := by simp [Net.init] at hw

omit [DecidableEq Pub] in
/-- A message that was just sent is timely for the other side. -/
theorem Ready.send (h : Inv K net E sent stage) (hr : Ready net) {s : Side} {key : MK}
    {hd : Header Pub} {p : Party Priv Pub RK CK MK}
    (hsend : (net.party s).send K = some (key, hd, p)) :
    Ready { net with
      party := Function.update net.party s p, log := net.log ++ [⟨s, hd, key⟩] } := by
  obtain ⟨-, e, ck, he, hck, hhd, -⟩ := (h.stands s).send hsend
  have hst := h.stage_peer s
  -- sending touches neither the receiving chain nor the stored keys
  have hsame : ∀ s' : Side, (Function.update net.party s p s').skipped = (net.party s').skipped ∧
      (Function.update net.party s p s').remote = (net.party s').remote ∧
      (Function.update net.party s p s').nr = (net.party s').nr := by
    intro s'
    rcases Side.eq_or_eq_peer s s' with rfl | rfl
    · simp only [Party.send, Option.map_eq_some_iff, Prod.mk.injEq] at hsend
      obtain ⟨ck', -, -, -, rfl⟩ := hsend
      simp
    · simp [Side.peer_ne s]
  refine ⟨?_, ?_⟩
  · intro s' i w hw hsrc hi
    simp only [Net.Timely, (hsame s').1, (hsame s').2.1, (hsame s').2.2]
    rcases getElem?_append_singleton.mp hw with hw | ⟨-, rfl⟩
    · exact hr.timely s' i w hw hsrc hi
    · obtain rfl : s' = s.peer := by
        rw [show s = s'.peer from hsrc, Side.peer_peer]
      right
      dsimp only
      rw [hhd]
      rcases hst with ⟨hp, -⟩ | ⟨hp, -⟩
      · refine Or.inl ⟨(h.remote he).mpr hp.symm, ?_⟩
        have := (h.stands s.peer).nr
        rwa [hp] at this
      · refine Or.inr ⟨fun hx => ?_, fun hx => ?_⟩
        · have := (h.remote he).mp hx
          omega
        · obtain ⟨c, e', hc, -, he', hd'⟩ := (h.retired s.peer _).mp hx
          have := h.distinct _ c e e' he he' hd'
          omega
  · -- a new message has the highest number of its chain
    have hnew : ∀ w ∈ net.log, w.header.dh = hd.dh → w.header.n ≠ hd.n := by
      intro w hw hdh
      obtain ⟨c, e', ck', he', -, -, -, hn, hhd', -⟩ := h.log w hw
      have hc : c = stage s := h.distinct _ _ e' e he' he
        ((congrArg Header.dh hhd').symm.trans (hdh.trans (congrArg Header.dh hhd)))
      rw [hc] at hn
      have := congrArg Header.n hhd
      dsimp only at this
      omega
    intro i j w w' hw hw' hdh hn
    rcases getElem?_append_singleton.mp hw with hw | ⟨hi, rfl⟩ <;>
      rcases getElem?_append_singleton.mp hw' with hw' | ⟨hj, rfl⟩
    · exact hr.distinct i j w w' hw hw' hdh hn
    · exact absurd hn (hnew w (List.mem_of_getElem? hw) hdh)
    · exact absurd hn.symm (hnew w' (List.mem_of_getElem? hw') hdh.symm)
    · rw [hi, hj]

/-- Delivering one message leaves the others placeable. -/
theorem Ready.deliver (h : Inv K net E sent stage) (hr : Ready net)
    (hcomm : ∀ x y, K.dh x (K.pub y) = K.dh y (K.pub x)) {s : Side} {i : Nat}
    {w : Wire Pub MK} (fresh : Priv) (hw : net.log[i]? = some w) (hsrc : w.src = s.peer)
    (hi : i ∉ net.done) : Ready (net.deliver K s i w.header fresh) := by
  refine ⟨?_, hr.distinct⟩
  intro s' j w' hw' hsrc' hj
  obtain ⟨hji, hj⟩ : j ≠ i ∧ j ∉ net.done := by simpa [Net.deliver, not_or] using hj
  have ht' := hr.timely s' j w' hw' hsrc' hj
  rcases Side.eq_or_eq_peer s s' with rfl | rfl
  swap
  · simpa [Net.Timely, Net.deliver, Side.peer_ne s] using ht'
  obtain ⟨c, e, ck, he, hck, hdh, hpn, -, hn, hpar, hc⟩ :=
    h.log_epoch (List.mem_of_getElem? hw) hsrc
  obtain ⟨c', e', ck', he', hck', hdh', -, -, hn', hpar', hc'⟩ :=
    h.log_epoch (List.mem_of_getElem? hw') hsrc'
  have hslot : w'.header.dh = w.header.dh → w'.header.n ≠ w.header.n := fun hd hn =>
    hji (hr.distinct j i w' w hw' hw hd hn)
  simp only [Net.Timely, Net.deliver, Function.update_self]
  rcases h.timely_cases he hdh hpar hc (hr.timely s' i w hw hsrc hi) with
    ⟨key, hhit⟩ | ⟨hmiss, hcase⟩
  · -- only the slot of the delivered message is cleared
    have hret : net.retire s' w.header = net.retired s' := by simp [Net.retire, hhit]
    rw [recv_of_hit fresh hhit, hret]
    simp only [Party.forget]
    rw [if_neg fun hx => hslot hx.1 hx.2]
    exact ht'
  obtain ⟨E', hpre, hq, hnr, hturn⟩ := h.turn hcomm fresh he hdh hpn hcase
  have heE := getElem?_mono hpre he
  rw [recv_of_miss hmiss hq heE hck hnr]
  rcases h.timely_cases he' hdh' hpar' hc' ht' with ⟨key', hhit'⟩ | ⟨hmiss', hcase'⟩
  · exact Or.inl (skipped_skip_ne_none (skipped_turn_ne_none (by rw [hhit']; simp)))
  -- a message of the epoch just turned to is passed, or still ahead
  have hsame : c' = c → (((net.party s').turn K w.header fresh).skip K w.header.n).skipped
        w'.header.dh w'.header.n ≠ none ∨
      some w'.header.dh = ((net.party s').turn K w.header fresh).remote ∧
        w.header.n + 1 ≤ w'.header.n ∨
      w'.header.n < ((net.party s').turn K w.header fresh).nr := by
    rintro rfl
    obtain rfl : e = e' := by simpa [he] using he'
    have hd : w'.header.dh = w.header.dh := hdh'.trans hdh.symm
    have hne := hslot hd
    rcases Nat.lt_or_ge w'.header.n ((net.party s').turn K w.header fresh).nr with hlt | hge
    · exact Or.inr (Or.inr hlt)
    · rcases Nat.lt_or_gt_of_ne hne with hlt | hgt
      · rw [hdh']
        exact Or.inl (hq.skip_covers heE hck hge hlt)
      · refine Or.inr (Or.inl ⟨?_, hgt⟩)
        rcases hq.other with ⟨h0, -⟩ | ⟨u, e₁, hu, he₁, hrem, -⟩
        · exact absurd h0 (by omega)
        · obtain rfl : c' = u := by omega
          obtain rfl : e = e₁ := by simpa [heE] using he₁
          rw [hrem, hdh']
  have hskipRem : ∀ till, (((net.party s').turn K w.header fresh).skip K till).remote =
      ((net.party s').turn K w.header fresh).remote := by
    intro till
    unfold Party.skip
    split <;> rfl
  simp only [hskipRem]
  rcases hturn with ⟨hcur, -, hrem, hturn⟩ | ⟨rfl, -, hrem, hturn⟩
  · rcases hcase' with ⟨hcur', hnr'⟩ | hnext'
    · rcases hsame (by omega) with hst | hah | hlt
      · exact Or.inl hst
      · exact Or.inr (Or.inl hah)
      · rw [hturn] at hlt
        omega
    · -- `w'` opens the epoch after the current one, which stays unopened
      refine Or.inr (Or.inr ?_)
      have hret : net.retire s' w.header = net.retired s' := by simp [Net.retire, hrem]
      rw [hret, hturn]
      rcases ht' with hx | ⟨hx, -⟩ | hx
      · exact absurd hmiss' hx
      · rw [hdh'] at hx
        have := (h.remote he').mp hx
        omega
      · exact hx
  · rcases hcase' with ⟨hcur', hnr'⟩ | hnext'
    · -- the chain that is being left is stored up to its end
      left
      have hst := h.stands s'
      rw [← hcur'] at hst
      have hpn' : w'.header.n < w.header.pn := by
        rw [hpn, ← hcur']
        exact hn'
      have hcov := hst.skip_covers he' hck' hnr' hpn'
      apply skipped_skip_ne_none
      rw [hturn, hdh']
      exact hcov
    · rcases hsame hnext' with hst | hah | hlt
      · exact Or.inl hst
      · exact Or.inr (Or.inl hah)
      · rw [hturn] at hlt
        exact absurd hlt (Nat.not_lt_zero _)

/-! ## Runs -/

theorem once_run (hcomm : ∀ x y, K.dh x (K.pub y) = K.dh y (K.pub x)) {rk : RK} {a b : Priv}
    (hab : K.pub a ≠ K.pub b) {net : Net Priv Pub RK CK MK}
    (hrun : Relation.ReflTransGen (OnceStep K) (Net.init K rk a b) net) :
    (∃ E sent stage, Inv K net E sent stage) ∧ Ready net := by
  induction hrun with
  | refl => exact ⟨⟨_, _, _, Inv.init rk hab⟩, Ready.init rk a b⟩
  | tail _ hstep ih =>
    obtain ⟨⟨E, sent, stage, h⟩, hr⟩ := ih
    cases hstep with
    | send s hsend => exact ⟨⟨_, _, _, h.send hsend⟩, Ready.send h hr hsend⟩
    | recv s i fresh hlog hsrc hfresh honce =>
      have ht := hr.timely s i _ hlog hsrc honce
      obtain ⟨-, E', stage', h'⟩ :=
        h.deliver (i := i) hcomm (List.mem_of_getElem? hlog) hsrc hfresh ht
      exact ⟨⟨E', sent, stage', h'⟩, hr.deliver h hcomm fresh hlog hsrc honce⟩

/-- **Key agreement over a lossy, reordering network.** Every first delivery of
a genuine message yields the key its sender used. -/
theorem once_recv (hcomm : ∀ x y, K.dh x (K.pub y) = K.dh y (K.pub x)) {rk : RK} {a b : Priv}
    (hab : K.pub a ≠ K.pub b) {net : Net Priv Pub RK CK MK}
    (hrun : Relation.ReflTransGen (OnceStep K) (Net.init K rk a b) net) {s : Side} {i : Nat}
    {w : Wire Pub MK} {fresh : Priv} (hlog : net.log[i]? = some w) (hsrc : w.src = s.peer)
    (hfresh : net.Turns s w.header → K.pub fresh ∉ net.used) (honce : i ∉ net.done) :
    ((net.party s).recv K w.header fresh).1 = some w.key := by
  obtain ⟨⟨E, sent, stage, h⟩, hr⟩ := once_run hcomm hab hrun
  exact (h.deliver (i := i) hcomm (List.mem_of_getElem? hlog) hsrc hfresh
    (hr.timely s i w hlog hsrc honce)).1

end Ratchet
