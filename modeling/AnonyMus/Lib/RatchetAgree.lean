import AnonyMus.Lib.RatchetNet

/-!
# Key agreement in a double ratchet

* `Stands` — one side, seen from the epoch it stands at, with a lemma for each
  operation of a party;
* `Inv` — the two-party invariant, with what each event does to it;
* `Inv.deliver` — a timely delivery yields the sender's key;
* `Inv.run` — the invariant along every run.
-/

namespace Ratchet

variable {Priv Pub Dh RK CK MK : Type}

/-! ## One side at an epoch -/

/-- Party `p` stands at epoch `t`: its own ratchet key opened epoch `t`, it
receives on the chain of the epoch before, and every key it has stored is the
right one. -/
structure Stands (K : Kdf Priv Pub Dh RK CK MK) (E : List (Epoch Priv RK CK))
    (sent : Nat → Nat) (t : Nat) (p : Party Priv Pub RK CK MK) : Prop where
  own    : ∃ e, E[t]? = some e ∧ p.self = e.key ∧ p.rk = e.root ∧
    p.cks = e.seed.map (K.ckAt · p.ns)
  other  : (t = 0 ∧ p.remote = none ∧ p.ckr = none) ∨
    ∃ u e, t = u + 1 ∧ E[u]? = some e ∧ p.remote = some (K.pub e.key) ∧
      p.ckr = e.seed.map (K.ckAt · p.nr)
  ns     : p.ns = sent t
  nr     : p.nr ≤ before sent t
  pn     : p.pn = before (before sent) t
  stored : ∀ d n key, p.skipped d n = some key → ∃ (c : Nat) (e : Epoch Priv RK CK) (ck : CK),
    E[c]? = some e ∧ e.seed = some ck ∧ d = K.pub e.key ∧ key = K.mkAt ck n

namespace Stands

variable {K : Kdf Priv Pub Dh RK CK MK} {E E' : List (Epoch Priv RK CK)}
  {sent sent' : Nat → Nat} {t : Nat} {p : Party Priv Pub RK CK MK}

/-- More epochs and more messages of the other side change nothing. -/
theorem mono (h : Stands K E sent t p) (hE : E <+: E') (hns : sent' t = sent t)
    (hle : before sent t ≤ before sent' t)
    (hpn : before (before sent') t = before (before sent) t) :
    Stands K E' sent' t p where
  own := by
    obtain ⟨e, he, hself, hrk, hcks⟩ := h.own
    exact ⟨e, getElem?_mono hE he, hself, hrk, hcks⟩
  other := by
    rcases h.other with h0 | ⟨u, e, ht, he, hrem, hckr⟩
    · exact Or.inl h0
    · exact Or.inr ⟨u, e, ht, getElem?_mono hE he, hrem, hckr⟩
  ns := h.ns.trans hns.symm
  nr := Nat.le_trans h.nr hle
  pn := h.pn.trans hpn.symm
  stored d n key hkey := by
    obtain ⟨c, e, ck, he, hck, hd, hk⟩ := h.stored d n key hkey
    exact ⟨c, e, ck, getElem?_mono hE he, hck, hd, hk⟩

/-- A receiving chain belongs to a known peer key. -/
theorem remote_ne_none (h : Stands K E sent t p) (hckr : p.ckr ≠ none) : p.remote ≠ none := by
  rcases h.other with ⟨-, -, hnone⟩ | ⟨u, e, -, -, hrem, -⟩
  · exact absurd hnone hckr
  · rw [hrem]
    simp

/-- Losing skipped keys is harmless to what is left. -/
theorem keep (h : Stands K E sent t p) {kept : Pub → Nat → Option MK}
    (hkept : ∀ d n key, kept d n = some key → p.skipped d n = some key) :
    Stands K E sent t { p with skipped := kept } where
  own := h.own
  other := h.other
  ns := h.ns
  nr := h.nr
  pn := h.pn
  stored d n key hkey := h.stored d n key (hkept d n key hkey)

/-- Sending advances the own chain by one message. -/
theorem send (h : Stands K E sent t p) {key : MK} {hd : Header Pub}
    {p' : Party Priv Pub RK CK MK} (hsend : p.send K = some (key, hd, p')) :
    Stands K E (Function.update sent t (sent t + 1)) t p' ∧
      ∃ (e : Epoch Priv RK CK) (ck : CK), E[t]? = some e ∧ e.seed = some ck ∧
        hd = ⟨K.pub e.key, before (before sent) t, sent t⟩ ∧ key = K.mkAt ck (sent t) := by
  obtain ⟨e, he, hself, hrk, hcks⟩ := h.own
  simp only [Party.send, Option.map_eq_some_iff, Prod.mk.injEq] at hsend
  obtain ⟨ck, hck, rfl, rfl, rfl⟩ := hsend
  rw [hck] at hcks
  obtain ⟨seed, hseed, rfl⟩ := Option.map_eq_some_iff.mp hcks.symm
  refine ⟨⟨⟨e, he, hself, hrk, ?_⟩, h.other, ?_, ?_, ?_, h.stored⟩,
    e, seed, he, hseed, ?_, ?_⟩
  · simp [hseed]
  · simp [h.ns]
  · rw [before_update (by omega)]
    exact h.nr
  · rw [before_before_update (by omega)]
    exact h.pn
  · simp [hself, h.pn, h.ns]
  · simp [h.ns]

/-- The ratchet onto the next epoch, two epochs ahead of the old position. -/
theorem ratchet (h : Stands K E sent t p) (hcomm : ∀ x y, K.dh x (K.pub y) = K.dh y (K.pub x))
    (hE : Linked K E) {e' : Epoch Priv RK CK} (he' : E[t + 1]? = some e') {fresh : Priv}
    (hlen : E.length = t + 2) (hnew : sent (t + 2) = 0) :
    Stands K (E ++ [e'.next K fresh]) sent (t + 2) (p.ratchet K (K.pub e'.key) fresh) := by
  obtain ⟨e, he, hself, hrk, -⟩ := h.own
  -- both sides compute the same root and chain for epoch `t + 1`
  have hstep : K.kdfRk p.rk (K.dh p.self (K.pub e'.key)) =
      K.kdfRk e.root (K.dh e'.key (K.pub e.key)) := by
    rw [hself, hrk, hcomm]
  have hnext := hE.next t e e' he he'
  have hroot : (K.kdfRk e.root (K.dh e'.key (K.pub e.key))).1 = e'.root :=
    (congrArg Epoch.root hnext).symm
  have hseed : some (K.kdfRk e.root (K.dh e'.key (K.pub e.key))).2 = e'.seed :=
    (congrArg Epoch.seed hnext).symm
  refine ⟨⟨e'.next K fresh, by simp [hlen], rfl, ?_, ?_⟩,
    Or.inr ⟨t + 1, e', rfl, getElem?_mono (List.prefix_append _ _) he', rfl, ?_⟩,
    hnew.symm, Nat.zero_le _, h.ns, ?_⟩
  · simp only [Party.ratchet, Epoch.next]
    rw [hstep, hroot]
  · simp only [Party.ratchet, Epoch.next, Option.map_some]
    rw [hstep, hroot, K.ckAt_zero]
  · simp only [Party.ratchet]
    rw [hstep, hseed]
    cases e'.seed <;> rfl
  · intro d n key hkey
    obtain ⟨c, e₀, ck, he₀, hck, hd, hk⟩ := h.stored d n key hkey
    exact ⟨c, e₀, ck, getElem?_mono (List.prefix_append _ _) he₀, hck, hd, hk⟩

variable [DecidableEq Pub]

/-- Using up a skipped key. -/
theorem forget (h : Stands K E sent t p) (d : Pub) (n : Nat) :
    Stands K E sent t (p.forget d n) :=
  h.keep fun d' n' key hkey => by
    by_cases hc : d' = d ∧ n' = n
    · rw [if_pos hc] at hkey
      exact absurd hkey (by simp)
    · rwa [if_neg hc] at hkey

/-- Skipping on the receiving chain stores the keys that are passed. -/
theorem skip (h : Stands K E sent t p) {till : Nat} (htill : till ≤ before sent t) :
    Stands K E sent t (p.skip K till) := by
  unfold Party.skip
  split
  · rename_i ck d hck hd
    obtain ⟨-, hrem, -⟩ | ⟨u, e, rfl, he, hrem, hckr⟩ := h.other
    · rw [hrem] at hd
      exact absurd hd (by simp)
    · rw [hck] at hckr
      obtain ⟨seed, hseed, rfl⟩ := Option.map_eq_some_iff.mp hckr.symm
      rw [hd, Option.some.injEq] at hrem
      refine ⟨h.own, Or.inr ⟨u, e, rfl, he, hd.trans (congrArg some hrem), ?_⟩,
        h.ns, ?_, h.pn, ?_⟩
      · simp only [hseed, Option.map_some, K.ckAt_ckAt]
        congr 2
        omega
      · exact Nat.max_le.mpr ⟨h.nr, htill⟩
      · intro d' n key hkey
        dsimp only at hkey
        split at hkey
        · rename_i hin
          obtain ⟨hd', hlo, -⟩ := hin
          rw [K.mkAt_ckAt, Option.some.injEq] at hkey
          refine ⟨u, e, seed, he, hseed, hd'.trans hrem, ?_⟩
          rw [← hkey]
          congr 1
          omega
        · exact h.stored d' n key hkey
  · exact h

/-- Skipping up to message `n` of the receiving chain leaves the chain there. -/
theorem skip_ckr (h : Stands K E sent (t + 1) p) {e : Epoch Priv RK CK} {ck : CK}
    (he : E[t]? = some e) (hseed : e.seed = some ck) {n : Nat} (hn : p.nr ≤ n) :
    (p.skip K n).ckr = some (K.ckAt ck n) ∧ (p.skip K n).nr = n := by
  obtain ⟨h0, -⟩ | ⟨u, e₁, hu, he₁, hrem, hckr⟩ := h.other
  · exact absurd h0 (by omega)
  · obtain rfl : t = u := by omega
    obtain rfl : e = e₁ := by simpa [he] using he₁
    rw [hseed, Option.map_some] at hckr
    simp only [Party.skip, hckr, hrem, K.ckAt_ckAt, Option.some.injEq]
    refine ⟨?_, by omega⟩
    congr 1
    omega

/-- Receiving message `n` on the receiving chain. -/
theorem take (h : Stands K E sent (t + 1) p) {e : Epoch Priv RK CK} {ck : CK}
    (he : E[t]? = some e) (hseed : e.seed = some ck) {n : Nat} (hsent : n < sent t) :
    Stands K E sent (t + 1)
      { p.skip K n with ckr := some (K.ckAt ck (n + 1)), nr := n + 1 } := by
  have hskip := h.skip (Nat.le_of_lt hsent)
  obtain ⟨h0, -⟩ | ⟨u, e₁, hu, he₁, hrem, hckr⟩ := hskip.other
  · exact absurd h0 (by omega)
  · obtain rfl : t = u := by omega
    obtain rfl : e = e₁ := by simpa [he] using he₁
    exact ⟨hskip.own, Or.inr ⟨t, e, rfl, he, hrem, by simp [hseed]⟩, hskip.ns,
      hsent, hskip.pn, hskip.stored⟩

end Stands

/-! ## The two-party invariant -/

/-- The state of a conversation: the epochs `E`, the number of messages `sent`
in each, and the epoch each side stands at. -/
structure Inv (K : Kdf Priv Pub Dh RK CK MK) (net : Net Priv Pub RK CK MK)
    (E : List (Epoch Priv RK CK)) (sent : Nat → Nat) (stage : Side → Nat) : Prop where
  linked   : Linked K E
  adjacent : ∀ s, stage s + 1 ≤ E.length ∧
    (stage s + 1 = E.length ∨ stage s + 2 = E.length ∧ stage s.peer + 1 = E.length)
  parity   : ∀ s, stage s % 2 = s.parity
  distinct : ∀ (c c' : Nat) (e e' : Epoch Priv RK CK), E[c]? = some e → E[c']? = some e' →
    K.pub e.key = K.pub e'.key → c = c'
  used     : ∀ (c : Nat) (e : Epoch Priv RK CK), E[c]? = some e → K.pub e.key ∈ net.used
  unsent   : ∀ c, E.length ≤ c → sent c = 0
  stands   : ∀ s, Stands K E sent (stage s) (net.party s)
  retired  : ∀ s d, d ∈ net.retired s ↔
    ∃ (c : Nat) (e : Epoch Priv RK CK), c + 1 < stage s ∧ c % 2 ≠ s.parity ∧
      E[c]? = some e ∧ d = K.pub e.key
  log      : ∀ w ∈ net.log, ∃ (c : Nat) (e : Epoch Priv RK CK) (ck : CK),
    E[c]? = some e ∧ e.seed = some ck ∧ c % 2 = w.src.parity ∧ c ≤ stage w.src ∧
      w.header.n < sent c ∧
      w.header = ⟨K.pub e.key, before (before sent) c, w.header.n⟩ ∧
      w.key = K.mkAt ck w.header.n

theorem Side.parity_peer (s : Side) : s.peer.parity = 1 - s.parity := by
  cases s <;> rfl

theorem Side.parity_le (s : Side) : s.parity ≤ 1 := by
  cases s <;> decide

section

variable {K : Kdf Priv Pub Dh RK CK MK} {net : Net Priv Pub RK CK MK}
  {E : List (Epoch Priv RK CK)} {sent : Nat → Nat} {stage : Side → Nat}

/-- The two sides stand at neighbouring epochs. -/
theorem Inv.stage_peer (h : Inv K net E sent stage) (s : Side) :
    stage s.peer = stage s + 1 ∧ stage s + 2 = E.length ∨
      stage s = stage s.peer + 1 ∧ stage s + 1 = E.length := by
  have h1 := h.adjacent s
  have h2 := h.adjacent s.peer
  have p1 := h.parity s
  have p2 := h.parity s.peer
  have := s.parity_peer
  have := s.parity_le
  rw [Side.peer_peer] at h2
  omega

/-- Where a genuine message for side `s` comes from: an epoch at most one ahead
of the one `s` stands at, and of the other parity. -/
theorem Inv.log_epoch (h : Inv K net E sent stage) {s : Side} {w : Wire Pub MK}
    (hw : w ∈ net.log) (hsrc : w.src = s.peer) :
    ∃ (c : Nat) (e : Epoch Priv RK CK) (ck : CK), E[c]? = some e ∧ e.seed = some ck ∧
      w.header.dh = K.pub e.key ∧ w.header.pn = before (before sent) c ∧
      w.key = K.mkAt ck w.header.n ∧ w.header.n < sent c ∧ c % 2 ≠ s.parity ∧
      (c = stage s + 1 ∨ c + 1 = stage s ∨ c + 1 < stage s) := by
  obtain ⟨c, e, ck, he, hck, hpar, hle, hn, hhd, hkey⟩ := h.log w hw
  rw [hsrc] at hpar hle
  have hp := h.parity s
  have hpp := s.parity_peer
  have := s.parity_le
  have hst := h.stage_peer s
  refine ⟨c, e, ck, he, hck, congrArg Header.dh hhd, congrArg Header.pn hhd, hkey, hn,
    by omega, ?_⟩
  omega

/-- The sender's key to which side `s` is turned. -/
theorem Inv.remote (h : Inv K net E sent stage) {s : Side} {c : Nat}
    {e : Epoch Priv RK CK} (he : E[c]? = some e) :
    some (K.pub e.key) = (net.party s).remote ↔ c + 1 = stage s := by
  rcases (h.stands s).other with ⟨h0, hrem, -⟩ | ⟨u, e', hu, he', hrem, -⟩
  · rw [hrem, h0]
    simp
  · rw [hrem, hu, Option.some.injEq]
    constructor
    · intro hpub
      rw [h.distinct c u e e' he he' hpub]
    · intro hc
      obtain rfl : c = u := by omega
      obtain rfl : e = e' := by simpa [he] using he'
      rfl

/-- A timely header is stored, or continues the current chain, or opens the
next one. -/
theorem Inv.timely_cases (h : Inv K net E sent stage) {s : Side} {w : Wire Pub MK}
    {c : Nat} {e : Epoch Priv RK CK} (he : E[c]? = some e)
    (hdh : w.header.dh = K.pub e.key) (hpar : c % 2 ≠ s.parity)
    (hc : c = stage s + 1 ∨ c + 1 = stage s ∨ c + 1 < stage s)
    (ht : net.Timely s w.header) :
    (∃ key, (net.party s).skipped w.header.dh w.header.n = some key) ∨
      (net.party s).skipped w.header.dh w.header.n = none ∧
        (c + 1 = stage s ∧ (net.party s).nr ≤ w.header.n ∨ c = stage s + 1) := by
  cases hskip : (net.party s).skipped w.header.dh w.header.n with
  | some key => exact Or.inl ⟨key, rfl⟩
  | none =>
    refine Or.inr ⟨rfl, ?_⟩
    rcases ht with hhit | ⟨hrem, hn⟩ | ⟨hrem, hret⟩
    · exact absurd hskip hhit
    · rw [hdh] at hrem
      exact Or.inl ⟨(h.remote he).mp hrem, hn⟩
    · rw [hdh] at hrem hret
      rcases hc with hc | hc | hc
      · exact Or.inr hc
      · exact absurd ((h.remote he).mpr hc) hrem
      · exact absurd ((h.retired s _).mpr ⟨c, e, hc, hpar, he, rfl⟩) hret

/-- A side has received no more messages of its current chain than were sent. -/
theorem Inv.nr_le (h : Inv K net E sent stage) (s : Side) :
    (net.party s).nr ≤ max (net.party s.peer).ns (net.party s.peer).pn := by
  have hnr := (h.stands s).nr
  have hns := (h.stands s.peer).ns
  have hpn := (h.stands s.peer).pn
  cases hs : stage s with
  | zero =>
    rw [hs] at hnr
    exact Nat.le_trans hnr (Nat.zero_le _)
  | succ u =>
    rw [hs] at hnr
    rcases h.stage_peer s with ⟨hp, -⟩ | ⟨hp, -⟩
    · rw [hp, hs] at hpn
      rw [hpn]
      exact Nat.le_trans hnr (Nat.le_max_right ..)
    · obtain rfl : u = stage s.peer := by omega
      rw [hns]
      exact Nat.le_trans hnr (Nat.le_max_left ..)

/-- A party that only its own moves have changed, still at the same epoch. -/
theorem Inv.update_party (h : Inv K net E sent stage) {net' : Net Priv Pub RK CK MK}
    {s : Side} {p : Party Priv Pub RK CK MK} (hp : Stands K E sent (stage s) p)
    (hparty : net'.party = Function.update net.party s p) (hlog : net'.log = net.log)
    (hret : net'.retired = net.retired) (hused : ∀ d ∈ net.used, d ∈ net'.used) :
    Inv K net' E sent stage where
  linked := h.linked
  adjacent := h.adjacent
  parity := h.parity
  distinct := h.distinct
  used c e he := hused _ (h.used c e he)
  unsent := h.unsent
  stands s' := by
    rw [hparty]
    by_cases hs : s' = s
    · subst hs
      rwa [Function.update_self]
    · rw [Function.update_of_ne hs]
      exact h.stands s'
  retired s' d := by
    rw [hret]
    exact h.retired s' d
  log w hw := h.log w (hlog ▸ hw)

/-- A send. -/
theorem Inv.send (h : Inv K net E sent stage) {s : Side} {key : MK} {hd : Header Pub}
    {p : Party Priv Pub RK CK MK} (hsend : (net.party s).send K = some (key, hd, p)) :
    Inv K { net with
        party := Function.update net.party s p, log := net.log ++ [⟨s, hd, key⟩] }
      E (Function.update sent (stage s) (sent (stage s) + 1)) stage := by
  obtain ⟨hp, e, ck, he, hck, hhd, hkey⟩ := (h.stands s).send hsend
  have hst := h.stage_peer s
  have hpar := h.parity s
  have hpp := s.parity_peer
  have hpar1 := s.parity_le
  have hlen : stage s < E.length := (List.getElem?_eq_some_iff.mp he).1
  refine ⟨h.linked, h.adjacent, h.parity, h.distinct, h.used, ?_, ?_, h.retired, ?_⟩
  · intro c hc
    rw [Function.update_of_ne (by omega)]
    exact h.unsent c hc
  · intro s'
    dsimp only
    rcases Side.eq_or_eq_peer s s' with rfl | rfl
    · rwa [Function.update_self]
    · rw [Function.update_of_ne (Side.peer_ne s)]
      exact (h.stands s.peer).mono (List.prefix_refl _)
        (Function.update_of_ne (by omega) ..) (before_le_before le_update _)
        (before_before_update (by omega))
  · intro w hw
    rcases List.mem_append.mp hw with hw | hw
    · obtain ⟨c, e', ck', he', hck', hpar', hle, hn, hhd', hkey'⟩ := h.log w hw
      refine ⟨c, e', ck', he', hck', hpar', hle,
        Nat.lt_of_lt_of_le hn (le_update c), ?_, hkey'⟩
      -- the chain two epochs back of a message in flight is closed
      rw [before_before_update]
      · exact hhd'
      · rcases Side.eq_or_eq_peer s w.src with hsrc | hsrc <;> rw [hsrc] at hpar' hle <;> omega
    · obtain rfl := List.mem_singleton.mp hw
      refine ⟨stage s, e, ck, he, hck, hpar, Nat.le_refl _, ?_, ?_, ?_⟩
      · simp [hhd]
      · rw [before_before_update (by omega)]
        simp [hhd]
      · rw [hkey, hhd]

theorem getElem?_append_singleton {α : Type} {l : List α} {x e : α} {c : Nat} :
    (l ++ [x])[c]? = some e ↔ l[c]? = some e ∨ c = l.length ∧ e = x := by
  rcases Nat.lt_or_ge c l.length with hc | hc
  · rw [List.getElem?_append_left hc]
    exact ⟨Or.inl, fun h => h.elim id fun h => absurd h.1 (by omega)⟩
  · rw [List.getElem?_append_right hc, List.getElem?_eq_none hc]
    rcases Nat.eq_or_lt_of_le hc with heq | hlt
    · simp [← heq, eq_comm]
    · have : [x][c - l.length]? = none := List.getElem?_eq_none (by simp; omega)
      simp only [this, reduceCtorEq, false_or, false_iff]
      omega

/-- Side `s` ratchets onto the epoch after its own. -/
theorem Inv.next (h : Inv K net E sent stage) {net' : Net Priv Pub RK CK MK} {s : Side}
    {e : Epoch Priv RK CK} (he : E[stage s + 1]? = some e) {fresh : Priv}
    (hfresh : K.pub fresh ∉ net.used) {p : Party Priv Pub RK CK MK}
    (hp : Stands K (E ++ [e.next K fresh]) sent (stage s + 2) p)
    (hparty : net'.party = Function.update net.party s p) (hlog : net'.log = net.log)
    (hret : net'.retired = Function.update net.retired s
      ((net.party s).remote.toList ++ net.retired s))
    (hused : net'.used = K.pub fresh :: net.used) :
    Inv K net' (E ++ [e.next K fresh]) sent (Function.update stage s (stage s + 2)) := by
  have hlt : stage s + 1 < E.length := (List.getElem?_eq_some_iff.mp he).1
  have hst := h.stage_peer s
  have hlen : E.length = stage s + 2 := by omega
  have hpre : E <+: E ++ [e.next K fresh] := List.prefix_append _ _
  have hpar := h.parity s
  have hpp := s.parity_peer
  have hstage : ∀ s', stage s' ≤ Function.update stage s (stage s + 2) s' := by
    intro s'
    by_cases hs : s' = s
    · subst hs
      simp
    · simp [hs]
  refine ⟨h.linked.append_next (by omega) he, ?_, ?_, ?_, ?_, ?_, ?_, ?_, ?_⟩
  · intro s'
    rw [List.length_append, List.length_singleton]
    rcases Side.eq_or_eq_peer s s' with rfl | rfl
    · rw [Function.update_self]
      omega
    · rw [Side.peer_peer, Function.update_self, Function.update_of_ne (Side.peer_ne s)]
      omega
  · intro s'
    rcases Side.eq_or_eq_peer s s' with rfl | rfl
    · rw [Function.update_self]
      omega
    · rw [Function.update_of_ne (Side.peer_ne s)]
      exact h.parity _
  · -- the key of the new epoch is fresh
    intro c c' d d' hd hd' hpub
    rcases getElem?_append_singleton.mp hd with hd | ⟨hc, rfl⟩ <;>
      rcases getElem?_append_singleton.mp hd' with hd' | ⟨hc', rfl⟩
    · exact h.distinct c c' d d' hd hd' hpub
    · exact absurd (hpub ▸ h.used c d hd) hfresh
    · exact absurd (hpub ▸ h.used c' d' hd') hfresh
    · rw [hc, hc']
  · intro c d hd
    rw [hused]
    rcases getElem?_append_singleton.mp hd with hd | ⟨-, rfl⟩
    · exact List.mem_cons_of_mem _ (h.used c d hd)
    · exact List.mem_cons_self ..
  · intro c hc
    rw [List.length_append, List.length_singleton] at hc
    exact h.unsent c (by omega)
  · intro s'
    rw [hparty]
    rcases Side.eq_or_eq_peer s s' with rfl | rfl
    · -- the side that turns stands in its new epoch, the other where it stood
      rwa [Function.update_self, Function.update_self]
    · rw [Function.update_of_ne (Side.peer_ne s), Function.update_of_ne (Side.peer_ne s)]
      exact (h.stands s.peer).mono hpre rfl (Nat.le_refl _) rfl
  · intro s' d
    rw [hret]
    rcases Side.eq_or_eq_peer s s' with rfl | rfl
    · rw [Function.update_self, Function.update_self, List.mem_append, Option.mem_toList,
        h.retired s' d]
      constructor
      · -- the remote key so far is retired with those retired before
        rintro (hrem | ⟨c, e', hc, hcp, he', rfl⟩)
        · rcases (h.stands s').other with ⟨-, hnone, -⟩ | ⟨u, e', hu, he', hrem', -⟩
          · rw [hnone] at hrem
            exact absurd hrem (by simp)
          · obtain rfl : K.pub e'.key = d := by simpa [hrem'] using hrem
            exact ⟨u, e', by omega, by omega, getElem?_mono hpre he', rfl⟩
        · exact ⟨c, e', by omega, hcp, getElem?_mono hpre he', rfl⟩
      · rintro ⟨c, e', hc, hcp, he', rfl⟩
        have he'' : E[c]? = some e' :=
          (getElem?_append_singleton.mp he').resolve_right fun hx => by omega
        rcases Nat.lt_or_ge (c + 1) (stage s') with hlt' | hge
        · exact Or.inr ⟨c, e', hlt', hcp, he'', rfl⟩
        · exact Or.inl ((h.remote he'').mpr (by omega)).symm
    · rw [Function.update_of_ne (Side.peer_ne s), Function.update_of_ne (Side.peer_ne s),
        h.retired]
      constructor
      · rintro ⟨c, e', hc, hcp, he', rfl⟩
        exact ⟨c, e', hc, hcp, getElem?_mono hpre he', rfl⟩
      · rintro ⟨c, e', hc, hcp, he', rfl⟩
        exact ⟨c, e', hc, hcp,
          (getElem?_append_singleton.mp he').resolve_right fun hx => by omega, rfl⟩
  · intro w hw
    rw [hlog] at hw
    obtain ⟨c, e', ck, he', hck, hcp, hle, hn, hhd, hkey⟩ := h.log w hw
    exact ⟨c, e', ck, getElem?_mono hpre he', hck, hcp, Nat.le_trans hle (hstage _), hn,
      hhd, hkey⟩

/-- The two freshly initialised sides. -/
theorem Inv.init (rk : RK) {a b : Priv} (hab : K.pub a ≠ K.pub b) :
    Inv K (Net.init K rk a b) [⟨b, rk, none⟩, Epoch.next K ⟨b, rk, none⟩ a]
      (fun _ => 0) Side.parity := by
  refine ⟨⟨?_, ?_⟩, ?_, ?_, ?_, ?_, ?_, ?_, ?_, ?_⟩
  · rintro e he
    obtain rfl := Option.some.inj he
    rfl
  · intro t e e' he he'
    -- there are two epochs, and the second follows the first
    match t with
    | 0 =>
      obtain rfl := Option.some.inj he
      obtain rfl := Option.some.inj he'
      rfl
    | t + 1 => simp at he'
  · intro s
    cases s <;> simp [Side.parity, Side.peer]
  · intro s
    cases s <;> rfl
  · intro c c' e e' he he' hpub
    match c, c' with
    | 0, 0 => rfl
    | 1, 1 => rfl
    | 0, 1 =>
      obtain rfl := Option.some.inj he
      obtain rfl := Option.some.inj he'
      exact absurd hpub.symm hab
    | 1, 0 =>
      obtain rfl := Option.some.inj he
      obtain rfl := Option.some.inj he'
      exact absurd hpub hab
    | c + 2, _ => simp at he
    | _, c' + 2 => simp at he'
  · intro c e he
    match c with
    | 0 =>
      obtain rfl := Option.some.inj he
      simp [Net.init]
    | 1 =>
      obtain rfl := Option.some.inj he
      simp [Net.init, Epoch.next]
    | c + 2 => simp at he
  · intro c _
    rfl
  · intro s
    -- Alice has the key of the first epoch, Bob has heard of none
    cases s with
    | alice =>
      refine ⟨⟨_, rfl, rfl, rfl, rfl⟩, Or.inr ⟨0, _, rfl, rfl, rfl, rfl⟩, rfl,
        Nat.le_refl _, rfl, ?_⟩
      intro d n key hkey
      exact absurd hkey (by simp [Net.init, Party.initSender])
    | bob =>
      refine ⟨⟨_, rfl, rfl, rfl, rfl⟩, Or.inl ⟨rfl, rfl, rfl⟩, rfl, Nat.le_refl _, rfl, ?_⟩
      intro d n key hkey
      exact absurd hkey (by simp [Net.init, Party.initReceiver])
  · intro s d
    simp only [Net.init, List.not_mem_nil, false_iff, not_exists, not_and]
    intro c e hc
    cases s <;> simp [Side.parity] at hc
  · intro w hw
    simp [Net.init] at hw

variable [DecidableEq Pub]

theorem recv_of_hit {p : Party Priv Pub RK CK MK} {hd : Header Pub} {key : MK} (fresh : Priv)
    (hkey : p.skipped hd.dh hd.n = some key) :
    p.recv K hd fresh = (some key, p.forget hd.dh hd.n) := by
  simp [Party.recv, hkey]

/-- A header that is not stored is read off the chain it is turned to. -/
theorem recv_of_miss {p : Party Priv Pub RK CK MK} {hd : Header Pub} {fresh : Priv} {t : Nat}
    {e : Epoch Priv RK CK} {ck : CK} (hskip : p.skipped hd.dh hd.n = none)
    (hq : Stands K E sent (t + 1) (p.turn K hd fresh)) (he : E[t]? = some e)
    (hseed : e.seed = some ck) (hn : (p.turn K hd fresh).nr ≤ hd.n) :
    p.recv K hd fresh = (some (K.mkAt ck hd.n),
      { (p.turn K hd fresh).skip K hd.n with
        ckr := some (K.ckAt ck (hd.n + 1)), nr := hd.n + 1 }) := by
  obtain ⟨hckr, hnr⟩ := hq.skip_ckr he hseed hn
  simp only [Party.recv, hskip, hckr, hnr, K.kdfCk_ckAt]

/-- Turned to the epoch of a timely header that is not stored, side `s` stands
right after that epoch: it was there already, or it ratchets there. -/
theorem Inv.turn (h : Inv K net E sent stage)
    (hcomm : ∀ x y, K.dh x (K.pub y) = K.dh y (K.pub x)) {s : Side} {hd : Header Pub}
    (fresh : Priv) {c : Nat} {e : Epoch Priv RK CK} (he : E[c]? = some e)
    (hdh : hd.dh = K.pub e.key) (hpn : hd.pn = before (before sent) c)
    (hc : c + 1 = stage s ∧ (net.party s).nr ≤ hd.n ∨ c = stage s + 1) :
    ∃ E', E <+: E' ∧ Stands K E' sent (c + 1) ((net.party s).turn K hd fresh) ∧
      ((net.party s).turn K hd fresh).nr ≤ hd.n ∧
      (c + 1 = stage s ∧ E' = E ∧ some hd.dh = (net.party s).remote ∧
          (net.party s).turn K hd fresh = net.party s ∨
        c = stage s + 1 ∧ E' = E ++ [e.next K fresh] ∧ some hd.dh ≠ (net.party s).remote ∧
          (net.party s).turn K hd fresh =
            ((net.party s).skip K hd.pn).ratchet K hd.dh fresh) := by
  -- in the current epoch nothing turns; a new one is a ratchet step of both chains
  rcases hc with ⟨hcur, hnr⟩ | rfl
  · have hrem : some hd.dh = (net.party s).remote := by
      rw [hdh]
      exact (h.remote he).mpr hcur
    have hturn : (net.party s).turn K hd fresh = net.party s := by
      rw [Party.turn, if_pos hrem]
    refine ⟨E, List.prefix_refl _, ?_, ?_, Or.inl ⟨hcur, rfl, hrem, hturn⟩⟩
    · rw [hturn, hcur]
      exact h.stands s
    · rwa [hturn]
  · have hlt : stage s + 1 < E.length := (List.getElem?_eq_some_iff.mp he).1
    have hst := h.stage_peer s
    have hrem : some hd.dh ≠ (net.party s).remote := by
      rw [hdh]
      intro hx
      have := (h.remote he).mp hx
      omega
    have hturn : (net.party s).turn K hd fresh =
        ((net.party s).skip K hd.pn).ratchet K hd.dh fresh := by
      rw [Party.turn, if_neg hrem]
    have hskip : Stands K E sent (stage s) ((net.party s).skip K hd.pn) :=
      (h.stands s).skip (Nat.le_of_eq hpn)
    refine ⟨_, List.prefix_append _ _, ?_, ?_, Or.inr ⟨rfl, rfl, hrem, hturn⟩⟩
    · rw [hturn, hdh]
      exact hskip.ratchet hcomm h.linked he (by omega) (h.unsent _ (by omega))
    · rw [hturn]
      exact Nat.zero_le _

/-- **Key agreement.** A timely delivery of a genuine message yields the key
its sender used, and keeps the invariant. -/
theorem Inv.deliver (h : Inv K net E sent stage)
    (hcomm : ∀ x y, K.dh x (K.pub y) = K.dh y (K.pub x)) {s : Side} {i : Nat}
    {w : Wire Pub MK} {fresh : Priv} (hw : w ∈ net.log) (hsrc : w.src = s.peer)
    (hfresh : net.Turns s w.header → K.pub fresh ∉ net.used) (ht : net.Timely s w.header) :
    ((net.party s).recv K w.header fresh).1 = some w.key ∧
      ∃ E' stage', Inv K (net.deliver K s i w.header fresh) E' sent stage' := by
  obtain ⟨c, e, ck, he, hck, hdh, hpn, hkey, hn, hpar, hc⟩ := h.log_epoch hw hsrc
  have hused : ∀ d ∈ net.used, d ∈ (net.deliver K s i w.header fresh).used := by
    intro d hd
    unfold Net.deliver
    dsimp only
    split
    · exact List.mem_cons_of_mem _ hd
    · exact hd
  rcases h.timely_cases he hdh hpar hc ht with ⟨key, hhit⟩ | ⟨hmiss, hcase⟩
  · -- the key was stored when the chain passed this message
    obtain ⟨c', e', ck', he', hck', hd', hk'⟩ := (h.stands s).stored _ _ _ hhit
    obtain rfl : c = c' := h.distinct c c' e e' he he' (hdh ▸ hd')
    obtain rfl : e = e' := by simpa [he] using he'
    obtain rfl : ck = ck' := by simpa [hck] using hck'
    have hrecv := recv_of_hit (K := K) fresh hhit
    have hret : net.retire s w.header = net.retired s := by simp [Net.retire, hhit]
    rw [hrecv, hkey, hk']
    refine ⟨rfl, E, stage, h.update_party ((h.stands s).forget w.header.dh w.header.n) ?_ rfl ?_
      hused⟩
    · rw [Net.deliver, hrecv]
    · simp [Net.deliver, hret]
  · obtain ⟨E', hpre, hq, hnr, hturn⟩ := h.turn hcomm fresh he hdh hpn hcase
    have he' := getElem?_mono hpre he
    have hrecv := recv_of_miss hmiss hq he' hck hnr
    have htake := hq.take he' hck hn
    rw [hrecv, hkey]
    refine ⟨rfl, E', ?_⟩
    rcases hturn with ⟨hcur, rfl, hrem, -⟩ | ⟨rfl, rfl, hrem, -⟩
    · -- the message continues the current receiving chain
      have hret : net.retire s w.header = net.retired s := by simp [Net.retire, hrem]
      refine ⟨stage, h.update_party (hcur ▸ htake) ?_ rfl ?_ hused⟩
      · rw [Net.deliver, hrecv]
      · simp [Net.deliver, hret]
    · -- the message opens the next epoch
      have hret : net.retire s w.header = (net.party s).remote.toList ++ net.retired s := by
        rw [Net.retire, if_pos ⟨hmiss, hrem⟩]
      refine ⟨_, h.next he (hfresh ⟨hmiss, hrem⟩) htake ?_ rfl ?_ ?_⟩
      · rw [Net.deliver, hrecv]
      · rw [Net.deliver, hret]
      · rw [Net.deliver, if_pos ⟨hmiss, hrem⟩]

/-- Every event keeps the invariant. -/
theorem Inv.step (h : Inv K net E sent stage)
    (hcomm : ∀ x y, K.dh x (K.pub y) = K.dh y (K.pub x)) {net' : Net Priv Pub RK CK MK}
    (hstep : Step K net net') : ∃ E' sent' stage', Inv K net' E' sent' stage' := by
  cases hstep with
  | send s hsend => exact ⟨_, _, _, h.send hsend⟩
  | recv s i fresh hlog hsrc hfresh htime =>
    obtain ⟨-, E', stage', h'⟩ :=
      h.deliver (i := i) hcomm (List.mem_of_getElem? hlog) hsrc hfresh htime
    exact ⟨E', sent, stage', h'⟩
  | evict s kept hkept =>
    exact ⟨E, sent, stage, h.update_party ((h.stands s).keep hkept) rfl rfl rfl fun _ hd => hd⟩

/-- The invariant holds along every run from a fresh pair. -/
theorem Inv.run (hcomm : ∀ x y, K.dh x (K.pub y) = K.dh y (K.pub x)) {rk : RK} {a b : Priv}
    (hab : K.pub a ≠ K.pub b) {net : Net Priv Pub RK CK MK}
    (hrun : Relation.ReflTransGen (Step K) (Net.init K rk a b) net) :
    ∃ E sent stage, Inv K net E sent stage := by
  induction hrun with
  | refl => exact ⟨_, _, _, Inv.init rk hab⟩
  | tail _ hstep ih =>
    obtain ⟨E, sent, stage, h⟩ := ih
    exact h.step hcomm hstep

end

end Ratchet
