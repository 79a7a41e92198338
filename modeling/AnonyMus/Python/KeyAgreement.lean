import AnonyMus.Python.Bridge

/-!
# Python core — message keys of genuine headers

Two sessions of `core/double_ratchet.py`, every header `encrypt` has returned,
and a network that hands headers to the peer's `decrypt`.

* `World`, `Step` — the runs in which every delivery is `allowed`;
* `Sim`, `Sim.send`, `Sim.receive` — each event follows the abstract network;
* `decrypt_agrees` — delivered at most once and within the bounds, every header
  yields the key of its `encrypt` call.
-/

namespace AnonyMus.Python

open Ratchet (Side Wire)

variable {Priv : Type} (C : Crypto Priv)

/-! ## Runs -/

structure World (Priv : Type) where
  session : Side → DoubleRatchetSession Priv
  /-- What the calls of `encrypt` returned. -/
  log     : List (Wire (Bytes 32) (Bytes 32))
  /-- The peer keys a side has ratcheted away from. -/
  retired : Side → List (Bytes 32)
  /-- The ratchet public keys generated so far. -/
  used    : List (Bytes 32)
  /-- The positions of `log` that were delivered. -/
  done    : List ℕ

/-- `decrypt` gets as far as the DH ratchet step. -/
def Ratchets (s : DoubleRatchetSession Priv) (hd : Ratchet.Header (Bytes 32)) : Prop :=
  ¬ Stored s hd ∧ s.dhRemote ≠ some hd.dh ∧ ¬ TooFar s hd.pn

instance (s : DoubleRatchetSession Priv) (hd : Ratchet.Header (Bytes 32)) :
    Decidable (Ratchets s hd) := by
  unfold Ratchets
  infer_instance

namespace World

def init (ss : List UInt8) (a b : Priv) : Except PyError (World Priv) := do
  let alice ← initAlice C ss (C.publicBytes b).1 a
  return { session := fun
             | .alice => alice
             | .bob => initBob ss b
           log := [], retired := fun _ => [], used := [C.publicBytes a, C.publicBytes b]
           done := [] }

/-- Side `s` calls `encrypt`. -/
def send (w : World Priv) (s : Side) : World Priv :=
  match encrypt C (w.session s) with
  | .ok (key, dh, n, pn) s' => { w with
      session := Function.update w.session s s', log := w.log ++ [⟨s, ⟨dh, pn, n⟩, key⟩] }
  | .error _ s' => { w with session := Function.update w.session s s' }

/-- What `decrypt` of side `s` does with this header. -/
abbrev result (w : World Priv) (s : Side) (hd : Ratchet.Header (Bytes 32)) (generated : Priv) :
    EStateM.Result PyError (DoubleRatchetSession Priv) (List UInt8) :=
  decrypt C hd.dh.1 hd.n hd.pn generated (w.session s)

/-- Side `s` is handed header `i` of the log. -/
def receive (w : World Priv) (s : Side) (i : ℕ) (hd : Ratchet.Header (Bytes 32))
    (generated : Priv) : World Priv :=
  { w with
    session := Function.update w.session s (w.result C s hd generated).state
    retired := Function.update w.retired s
      (if Ratchets (w.session s) hd then (w.session s).dhRemote.toList ++ w.retired s
        else w.retired s)
    used := if Ratchets (w.session s) hd then C.publicBytes generated :: w.used else w.used
    done := i :: w.done }

/-- Header `i` comes from the peer of `s`; a ratchet key that is generated is new. -/
structure Deliverable (w : World Priv) (s : Side) (i : ℕ) (wire : Wire (Bytes 32) (Bytes 32))
    (generated : Priv) : Prop where
  made  : w.log[i]? = some wire
  src   : wire.src = s.peer
  fresh : Ratchets (w.session s) wire.header → C.publicBytes generated ∉ w.used

end World

/-- One event: a call of `encrypt`, or an allowed delivery. -/
inductive Step (allowed : World Priv → Side → ℕ → Ratchet.Header (Bytes 32) → Prop) :
    World Priv → World Priv → Prop
  | encrypt {w} (s : Side) : Step allowed w (w.send C s)
  | decrypt {w} (s : Side) (i : ℕ) {wire} (generated : Priv)
      (hdel : w.Deliverable C s i wire generated) (hallowed : allowed w s i wire.header) :
      Step allowed w (w.receive C s i wire.header generated)

/-! ## Simulation by the abstract network -/

structure Sim (w : World Priv)
    (net : Ratchet.Net Priv (Bytes 32) (List UInt8) (Bytes 32) (Bytes 32)) : Prop where
  session : ∀ s, Shows (w.session s) (net.party s)
  log     : w.log = net.log
  retired : w.retired = net.retired
  used    : w.used = net.used

/-- Genuine X25519 keys always agree on a secret. -/
def Crypto.Agrees : Prop :=
  ∀ x y, ∃ z, C.exchange x (C.publicBytes y) = some z ∧ C.exchange y (C.publicBytes x) = some z

section

variable {C} {w w₀ : World Priv}
  {net : Ratchet.Net Priv (Bytes 32) (List UInt8) (Bytes 32) (Bytes 32)}
  {E : List (Ratchet.Epoch Priv (List UInt8) (Bytes 32))} {sent : ℕ → ℕ} {stage : Side → ℕ}

theorem Crypto.Agrees.dh_comm (hagrees : C.Agrees) (x y : Priv) :
    C.kdf.dh x (C.kdf.pub y) = C.kdf.dh y (C.kdf.pub x) := by
  obtain ⟨z, hz, hz'⟩ := hagrees x y
  show (C.exchange x (C.publicBytes y)).getD _ = (C.exchange y (C.publicBytes x)).getD _
  rw [hz, hz']

theorem Sim.init (hagrees : C.Agrees) {ss : List UInt8} {a b : Priv}
    (hinit : World.init C ss a b = .ok w₀) : Sim w₀ (Ratchet.Net.init C.kdf ss a b) := by
  obtain ⟨z, hz, -⟩ := hagrees a b
  obtain ⟨alice, halice, hshows⟩ := initAlice_shows C ss hz
  rw [World.init, halice] at hinit
  obtain rfl := Except.ok.inj hinit
  refine ⟨?_, rfl, rfl, rfl⟩
  intro s
  cases s with
  | alice => exact hshows
  | bob => exact initBob_shows ss b

theorem Sim.update_session (h : Sim w net) {s : Side} {x : DoubleRatchetSession Priv}
    {p : Ratchet.Party Priv (Bytes 32) (List UInt8) (Bytes 32) (Bytes 32)} (hx : Shows x p)
    (s' : Side) : Shows (Function.update w.session s x s') (Function.update net.party s p s') := by
  rcases Side.eq_or_eq_peer s s' with rfl | rfl
  · rwa [Function.update_self, Function.update_self]
  · rw [Function.update_of_ne (Side.peer_ne s), Function.update_of_ne (Side.peer_ne s)]
    exact h.session _

/-- A call of `encrypt` is a send, or it raises and nothing happens. -/
theorem Sim.send (h : Sim w net) (s : Side) :
    (w.send C s = w ∨ (∃ key hd p, (net.party s).send C.kdf = some (key, hd, p) ∧
      (w.send C s).done = w.done ∧
      Sim (w.send C s) { net with
        party := Function.update net.party s p, log := net.log ++ [⟨s, hd, key⟩] })) := by
  by_cases hchain : (w.session s).sendingChainKey = none
  · left
    rw [World.send, encrypt_of_none C (Or.inr hchain)]
    dsimp only
    rw [Function.update_eq_self]
  · right
    obtain ⟨key, hd, p, s', hsend, henc, hs', -⟩ := (h.session s).encrypt C hchain
    have hworld : w.send C s = { w with
        session := Function.update w.session s s', log := w.log ++ [⟨s, hd, key⟩] } := by
      rw [World.send, henc]
    refine ⟨key, hd, p, hsend, ?_, ?_⟩
    · rw [hworld]
    · rw [hworld]
      exact ⟨h.update_session hs', congrArg (· ++ _) h.log, h.retired, h.used⟩

theorem Sim.turns_iff (h : Sim w net) {s : Side} {hd : Ratchet.Header (Bytes 32)}
    (hwithin : WithinSkip (w.session s) hd) : net.Turns s hd ↔ Ratchets (w.session s) hd := by
  have hstored := (h.session s).stored_iff hd
  have hremote : (w.session s).dhRemote = (net.party s).remote := (h.session s).remote
  unfold Ratchets Ratchet.Net.Turns
  constructor
  · rintro ⟨hmiss, hne⟩
    have hst : ¬ Stored (w.session s) hd := fun hst => hstored.mp hst hmiss
    have hne' : (w.session s).dhRemote ≠ some hd.dh := fun heq => hne (heq.symm.trans hremote)
    have hbound := hwithin hst
    rw [if_neg hne'] at hbound
    exact ⟨hst, hne', hbound.1⟩
  · rintro ⟨hst, hne, -⟩
    exact ⟨not_not.mp fun hx => hst (hstored.mpr hx), fun heq => hne (hremote.trans heq.symm)⟩

/-- A delivery that is not refused and still timely returns the sender's key,
and is a delivery of the abstract network, after which some stored keys may
have been evicted; none if there is room. -/
theorem Sim.receive (h : Sim w net) (hinv : Ratchet.Inv C.kdf net E sent stage)
    (hagrees : C.Agrees) {s : Side} {i : ℕ} {wire : Wire (Bytes 32) (Bytes 32)}
    {generated : Priv} (hdel : w.Deliverable C s i wire generated)
    (hwithin : WithinSkip (w.session s) wire.header) (htime : net.Timely s wire.header)
    (full : Prop) (hroom : full →
      (w.session s).skippedMessageKeys.size + skipsTo (w.session s) wire.header ≤ 1000) :
    (net.Turns s wire.header → C.kdf.pub generated ∉ net.used) ∧ net.log[i]? = some wire ∧
    ∃ s' kept, w.result C s wire.header generated = .ok wire.key.1 s' ∧
      (∀ d n key, kept d n = some key →
        ((net.deliver C.kdf s i wire.header generated).party s).skipped d n = some key) ∧
      (full → kept = ((net.deliver C.kdf s i wire.header generated).party s).skipped) ∧
      Sim (w.receive C s i wire.header generated)
        { net.deliver C.kdf s i wire.header generated with
          party := Function.update (net.deliver C.kdf s i wire.header generated).party s
            { (net.deliver C.kdf s i wire.header generated).party s with skipped := kept } } := by
  have hlog : net.log[i]? = some wire := h.log ▸ hdel.made
  have hmem : wire ∈ net.log := List.mem_of_getElem? hlog
  have hturns := h.turns_iff hwithin
  have hfresh : net.Turns s wire.header → C.kdf.pub generated ∉ net.used := by
    rw [hturns, ← h.used]
    exact hdel.fresh
  refine ⟨hfresh, hlog, ?_⟩
  -- the abstract receiver takes the sender's key
  obtain ⟨hkey, -⟩ := hinv.deliver (i := i) hagrees.dh_comm hmem hdel.src hfresh htime
  have hrecv : (net.party s).recv C.kdf wire.header generated =
      (some wire.key, ((net.party s).recv C.kdf wire.header generated).2) := by
    rw [← hkey]
  -- a genuine header carries the public key of a generated key
  obtain ⟨_, e, _, -, -, hdh, -⟩ := hinv.log_epoch hmem hdel.src
  have hexchange : ∃ z z', C.exchange (net.party s).self wire.header.dh = some z ∧
      C.exchange generated wire.header.dh = some z' := by
    obtain ⟨z, hz, -⟩ := hagrees (net.party s).self e.key
    obtain ⟨z', hz', -⟩ := hagrees generated e.key
    rw [hdh]
    exact ⟨z, z', hz, hz'⟩
  obtain ⟨s', hs', kept, hkept, hfull, hshows⟩ :=
    decrypt_keeps (h.session s) hwithin (fun _ _ => hexchange) hroom hrecv
  have hparty : (net.deliver C.kdf s i wire.header generated).party s =
      ((net.party s).recv C.kdf wire.header generated).2 := Function.update_self ..
  refine ⟨s', kept, hs', ?_, ?_, ?_⟩
  · rwa [hparty]
  · rwa [hparty]
  · have hremote : (w.session s).dhRemote = (net.party s).remote := (h.session s).remote
    refine ⟨?_, h.log, ?_, ?_⟩
    · intro t
      rw [World.receive, World.result, hs']
      dsimp only [EStateM.Result.state]
      rw [hparty, Ratchet.Net.deliver, Function.update_idem]
      exact h.update_session hshows t
    · unfold World.receive Ratchet.Net.deliver Ratchet.Net.retire
      simp only [hturns, h.retired, hremote]
    · unfold World.receive Ratchet.Net.deliver
      simp only [hturns, h.used]
      rfl

/-! ## At most one delivery per header -/

/-- Header `i` was not delivered before, nothing is skipped beyond 100, and
there is room for every skipped key. -/
def World.Bounded (w : World Priv) (s : Side) (i : ℕ) (hd : Ratchet.Header (Bytes 32)) : Prop :=
  i ∉ w.done ∧ WithinSkip (w.session s) hd ∧
    (w.session s).skippedMessageKeys.size + skipsTo (w.session s) hd ≤ 1000

instance (w : World Priv) (s : Side) (i : ℕ) (hd : Ratchet.Header (Bytes 32)) :
    Decidable (w.Bounded s i hd) := by
  unfold World.Bounded
  infer_instance

/-- A bounded delivery is a first delivery of the abstract network. -/
theorem Sim.receive_bounded (h : Sim w net) (hdone : w.done = net.done) (hagrees : C.Agrees)
    {ss : List UInt8} {a b : Priv} (hab : C.publicBytes a ≠ C.publicBytes b)
    (hnet : Relation.ReflTransGen (Ratchet.OnceStep C.kdf) (Ratchet.Net.init C.kdf ss a b) net)
    {s : Side} {i : ℕ} {wire : Wire (Bytes 32) (Bytes 32)} {generated : Priv}
    (hdel : w.Deliverable C s i wire generated) (hbounded : w.Bounded s i wire.header) :
    (∃ s', w.result C s wire.header generated = .ok wire.key.1 s') ∧
      Ratchet.OnceStep C.kdf net (net.deliver C.kdf s i wire.header generated) ∧
      Sim (w.receive C s i wire.header generated)
        (net.deliver C.kdf s i wire.header generated) := by
  obtain ⟨honce, hwithin, hroom⟩ := hbounded
  obtain ⟨⟨E, sent, stage, hinv⟩, hready⟩ := Ratchet.once_run hagrees.dh_comm hab hnet
  have honce' : i ∉ net.done := hdone ▸ honce
  have htime := hready.timely s i wire (h.log ▸ hdel.made) hdel.src honce'
  obtain ⟨hfresh, hlog, s', kept, hs', -, hall, hsim⟩ :=
    h.receive hinv hagrees hdel hwithin htime True fun _ => hroom
  -- nothing was evicted
  obtain rfl := hall trivial
  rw [Function.update_eq_self] at hsim
  exact ⟨⟨s', hs'⟩, .recv s i generated hlog hdel.src hfresh honce', hsim⟩

theorem bounded_run (hagrees : C.Agrees) {ss : List UInt8} {a b : Priv}
    (hab : C.publicBytes a ≠ C.publicBytes b) (hinit : World.init C ss a b = .ok w₀)
    (hrun : Relation.ReflTransGen (Step C World.Bounded) w₀ w) :
    ∃ net, Sim w net ∧ w.done = net.done ∧
      Relation.ReflTransGen (Ratchet.OnceStep C.kdf) (Ratchet.Net.init C.kdf ss a b) net := by
  induction hrun with
  | refl =>
    refine ⟨_, Sim.init hagrees hinit, ?_, .refl⟩
    obtain ⟨alice, halice⟩ : ∃ alice, initAlice C ss (C.publicBytes b).1 a = .ok alice := by
      obtain ⟨z, hz, -⟩ := hagrees a b
      exact ⟨_, initAlice_of_exchange C ss hz⟩
    rw [World.init, halice] at hinit
    rw [← Except.ok.inj hinit]
    rfl
  | tail _ hstep ih =>
    obtain ⟨net, h, hdone, hnet⟩ := ih
    cases hstep with
    | encrypt s =>
      rcases h.send (C := C) s with hsame | ⟨key, hd, p, hsend, hdone', h'⟩
      · rw [hsame]
        exact ⟨net, h, hdone, hnet⟩
      · exact ⟨_, h', hdone'.trans hdone, hnet.tail (.send s hsend)⟩
    | decrypt s i generated hdel hbounded =>
      obtain ⟨-, hnext, h'⟩ := h.receive_bounded hdone hagrees hab hnet hdel hbounded
      exact ⟨_, h', congrArg (i :: ·) hdone, hnet.tail hnext⟩

/-- **Key agreement.** In every run of bounded deliveries, in whatever order
the headers come, `decrypt` returns the key of the `encrypt` call that
returned the header. -/
theorem decrypt_agrees (hagrees : C.Agrees) {ss : List UInt8} {a b : Priv}
    (hab : C.publicBytes a ≠ C.publicBytes b) (hinit : World.init C ss a b = .ok w₀)
    (hrun : Relation.ReflTransGen (Step C World.Bounded) w₀ w) {s : Side} {i : ℕ}
    {wire : Wire (Bytes 32) (Bytes 32)} {generated : Priv}
    (hdel : w.Deliverable C s i wire generated) (hbounded : w.Bounded s i wire.header) :
    ∃ s', w.result C s wire.header generated = .ok wire.key.1 s' := by
  obtain ⟨net, h, hdone, hnet⟩ := bounded_run hagrees hab hinit hrun
  exact (h.receive_bounded hdone hagrees hab hnet hdel hbounded).1

end

/-- Primitives by small formulas. -/
def sample : Crypto UInt8 where
  publicBytes x := Bytes.replicate 32 x
  exchange x d := some (Bytes.replicate 32 (x + d.1.headD 0))
  hkdf salt _ ikm :=
    let mix := salt.headD 0 + ikm.headD 0
    ⟨List.replicate 32 mix ++ List.replicate 32 (mix + 1), by simp⟩

theorem sample_agrees : sample.Agrees := fun x y =>
  ⟨_, rfl, congrArg (fun b => some (Bytes.replicate 32 b)) (UInt8.add_comm y x)⟩

/-- Alice with key 1 and Bob with key 2. -/
def sampleStart : World UInt8 where
  session
    | .alice => { dhPrivate := some 1, dhRemote := some (Bytes.replicate 32 2)
                  rootKey := some (List.replicate 32 3)
                  sendingChainKey := some (Bytes.replicate 32 4)
                  receivingChainKey := none, seqSend := 0, seqRecv := 0, prevChainLength := 0
                  skippedMessageKeys := Dict.empty }
    | .bob => initBob [0] 2
  log := []
  retired := fun _ => []
  used := [Bytes.replicate 32 1, Bytes.replicate 32 2]
  done := []

theorem sampleStart_init : World.init sample [0] 1 2 = .ok sampleStart := by
  rw [World.init, initAlice_of_exchange sample [0]
    (show sample.exchange 1 (sample.publicBytes 2) = some (Bytes.replicate 32 3) from rfl)]
  rfl

/-- Alice has called `encrypt` twice. -/
def sentTwo : World UInt8 := (sampleStart.send sample .alice).send sample .alice

/-- Her header number `n`, with its key. -/
def aliceWire (n : ℕ) : Wire (Bytes 32) (Bytes 32) :=
  ⟨.alice, ⟨Bytes.replicate 32 1, 0, n⟩, Bytes.replicate 32 (4 + UInt8.ofNat n)⟩

/-- Bob was handed the second header first. -/
def overtaken : World UInt8 := sentTwo.receive sample .bob 1 (aliceWire 1).header 3

/-- The first header still yields its key after the second. -/
theorem decrypt_agrees_overtaken :
    ∃ s', overtaken.result sample .bob (aliceWire 0).header 4 =
      .ok (aliceWire 0).key.1 s' := by
  have hsent : Relation.ReflTransGen (Step sample World.Bounded) sampleStart sentTwo :=
    .tail (.tail .refl (.encrypt .alice)) (.encrypt .alice)
  have hsecond : sentTwo.Deliverable sample .bob 1 (aliceWire 1) 3 :=
    ⟨by decide +kernel, rfl, by decide +kernel⟩
  have hfirst : overtaken.Deliverable sample .bob 0 (aliceWire 0) 4 :=
    ⟨by decide +kernel, rfl, by decide +kernel⟩
  exact decrypt_agrees sample_agrees (by decide) sampleStart_init
    (hsent.tail (.decrypt .bob 1 3 hsecond (by decide +kernel))) hfirst (by decide +kernel)

end AnonyMus.Python
