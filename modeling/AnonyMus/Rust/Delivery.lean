import AnonyMus.Rust.DoubleRatchet
import AnonyMus.Rust.Symbolic

/-!
# Rust core — delivery of genuine messages

Two sessions of `core/rust/src/protocol/double_ratchet.rs`, every `encrypt`
call either side has made, and a network that hands the output of a call to the
peer at most once, in any order.

* `World`, `Step` — the runs;
* `Sim`, `sim_run` — every run follows a run of the abstract network;
* `decrypt_delivers` — every delivery returns the plaintext that was sent.
-/

namespace AnonyMus.Rust

open Ratchet (Side)

variable {Priv Dh Key Nonce : Type} (P : Primitives Priv Dh Key Nonce)

/-! ## Runs -/

/-- One call of `encrypt` and what it returned. -/
structure Call where
  src       : Side
  plaintext : List UInt8
  output    : Except AnonymusError (Bytes 40 × List UInt8)

structure World (Priv Key : Type) where
  session : Side → Session Priv Key
  calls   : List Call
  /-- The positions of `calls` that were delivered. -/
  done    : List ℕ
  /-- The ratchet public keys generated so far. -/
  used    : List (Bytes 32)

namespace World

def init (ss : Key) (a b : Priv) : World Priv Key where
  session
    | .alice => initSender P ss (P.publicBytes b) a
    | .bob => initReceiver P ss b
  calls := []
  done := []
  used := [P.publicBytes a, P.publicBytes b]

/-- Side `s` encrypts `plaintext`. -/
def send (w : World Priv Key) (s : Side) (plaintext : List UInt8) : World Priv Key :=
  let result := encrypt P plaintext (w.session s)
  { w with
    session := Function.update w.session s result.state
    calls := w.calls ++ [⟨s, plaintext, match result with
      | .ok out _ => .ok out
      | .error e _ => .error e⟩] }

/-- Side `s` is handed the output of call `i`. -/
def receive (w : World Priv Key) (s : Side) (i : ℕ) (headerBytes : Bytes 40)
    (ciphertext : List UInt8) (generated : Priv) : World Priv Key :=
  { w with
    session := Function.update w.session s
      (decrypt P headerBytes ciphertext generated (w.session s)).state
    done := i :: w.done
    used := if (w.session s).Turns (Header.decode headerBytes) then
      P.publicBytes generated :: w.used else w.used }

/-- Call `i` of the peer of `s` returned this packet, `s` was not handed it
before and is within `maxSkip` of it; a ratchet key that is generated is new. -/
structure Deliverable (w : World Priv Key) (s : Side) (i : ℕ) (call : Call)
    (headerBytes : Bytes 40) (ciphertext : List UInt8) (generated : Priv) : Prop where
  made   : w.calls[i]? = some call
  output : call.output = .ok (headerBytes, ciphertext)
  src    : call.src = s.peer
  once   : i ∉ w.done
  fresh  : (w.session s).Turns (Header.decode headerBytes) → P.publicBytes generated ∉ w.used
  skip   : WithinSkip (w.session s) (Header.decode headerBytes)

end World

/-- One event: a side with a sending chain encrypts, fewer than
`2 ^ 32 - maxSkip` messages being sent in that chain, or a packet arrives. -/
inductive Step : World Priv Key → World Priv Key → Prop
  | encrypt {w} (s : Side) (plaintext : List UInt8) (hchain : (w.session s).cks ≠ none)
      (hns : (w.session s).ns.toNat + 1 < 2 ^ 32 - maxSkip.toNat) :
      Step w (w.send P s plaintext)
  | decrypt {w} (s : Side) (i : ℕ) {call headerBytes ciphertext} (generated : Priv)
      (hdeliver : w.Deliverable P s i call headerBytes ciphertext generated) :
      Step w (w.receive P s i headerBytes ciphertext generated)

/-! ## Simulation by the abstract network -/

/-- The call that produced a message of the abstract network. -/
structure Matches (c : Call) (wire : Ratchet.Wire (Bytes 32) Key) : Prop where
  src    : c.src = wire.src
  output : ∃ h : Header, h.view = wire.header ∧ h.n.toNat + 1 < 2 ^ 32 - maxSkip.toNat ∧
    c.output = (P.encryptWithNonce wire.key (P.deriveNonce wire.key) c.plaintext h.encode.1).map
      (h.encode, ·)

structure Sim (w : World Priv Key) (net : Ratchet.Net Priv (Bytes 32) Key Key Key) : Prop where
  session : ∀ s, (w.session s).view = net.party s
  calls   : List.Forall₂ (Matches P) w.calls net.log
  done    : w.done = net.done
  used    : w.used = net.used
  bound   : ∀ s, (w.session s).ns.toNat + maxSkip.toNat < 2 ^ 32 ∧
    (w.session s).pn.toNat + maxSkip.toNat < 2 ^ 32

theorem Sim.init (ss : Key) (a b : Priv) :
    Sim P (World.init P ss a b) (Ratchet.Net.init P.kdf (P.rootSeed ss) a b) where
  session s := by
    cases s with
    | alice => exact initSender_view P ss (P.publicBytes b) a
    | bob => exact initReceiver_view P ss b
  calls := List.Forall₂.nil
  done := rfl
  used := rfl
  bound s := by
    have hzero : (0 : UInt32).toNat + maxSkip.toNat < 2 ^ 32 := by decide
    cases s <;> exact ⟨hzero, hzero⟩

variable {P} {w : World Priv Key} {net : Ratchet.Net Priv (Bytes 32) Key Key Key}

theorem Sim.update_session (h : Sim P w net) {s : Side} {x : Session Priv Key}
    {p : Ratchet.Party Priv (Bytes 32) Key Key Key} (hx : x.view = p) (s' : Side) :
    (Function.update w.session s x s').view = Function.update net.party s p s' := by
  rcases Side.eq_or_eq_peer s s' with rfl | rfl
  · rw [Function.update_self, Function.update_self, hx]
  · rw [Function.update_of_ne (Side.peer_ne s), Function.update_of_ne (Side.peer_ne s)]
    exact h.session _

theorem Sim.update_bound (h : Sim P w net) {s : Side} {x : Session Priv Key}
    (hx : x.ns.toNat + maxSkip.toNat < 2 ^ 32 ∧ x.pn.toNat + maxSkip.toNat < 2 ^ 32)
    (s' : Side) : (Function.update w.session s x s').ns.toNat + maxSkip.toNat < 2 ^ 32 ∧
      (Function.update w.session s x s').pn.toNat + maxSkip.toNat < 2 ^ 32 := by
  rcases Side.eq_or_eq_peer s s' with rfl | rfl
  · rwa [Function.update_self]
  · rw [Function.update_of_ne (Side.peer_ne s)]
    exact h.bound _

/-- An encryption is a send of the abstract network. -/
theorem Sim.send (h : Sim P w net) {s : Side} (plaintext : List UInt8)
    (hchain : (w.session s).cks ≠ none)
    (hns : (w.session s).ns.toNat + 1 < 2 ^ 32 - maxSkip.toNat) :
    ∃ net', Ratchet.OnceStep P.kdf net net' ∧ Sim P (w.send P s plaintext) net' := by
  obtain ⟨ck, hck⟩ := Option.ne_none_iff_exists'.mp hchain
  obtain ⟨hd, s', hsend, hn, henc⟩ := encrypt_view P hck (by omega) plaintext
  -- the call advances the session whatever the AEAD returns
  have hworld : w.send P s plaintext = { w with
      session := Function.update w.session s s'
      calls := w.calls ++ [⟨s, plaintext,
        (P.encryptWithNonce (P.fromChain ck).1 (P.deriveNonce (P.fromChain ck).1) plaintext
          hd.encode.1).map (hd.encode, ·)⟩] } := by
    rw [World.send, henc]
    cases P.encryptWithNonce (P.fromChain ck).1 (P.deriveNonce (P.fromChain ck).1) plaintext
      hd.encode.1 <;> rfl
  -- one number is used up, and the previous chain's length stays
  have hcounters : s'.ns.toNat = (w.session s).ns.toNat + 1 ∧ s'.pn = (w.session s).pn := by
    simp only [Ratchet.Party.send, Option.map_eq_some_iff, Prod.mk.injEq] at hsend
    obtain ⟨_, _, _, _, hv⟩ := hsend
    exact ⟨(congrArg (·.ns) hv).symm, UInt32.toNat_inj.mp (congrArg (·.pn) hv).symm⟩
  have hstep := hsend
  rw [h.session s] at hstep
  refine ⟨_, .send s hstep, ?_⟩
  rw [hworld]
  refine ⟨h.update_session rfl, ?_, h.done, h.used, h.update_bound ⟨?_, ?_⟩⟩
  -- the two logs grow by the same message
  · refine List.rel_append h.calls (List.Forall₂.cons ⟨rfl, hd, rfl, ?_, rfl⟩ List.Forall₂.nil)
    rw [hn]
    exact hns
  · rw [hcounters.1]
    omega
  · rw [hcounters.2]
    exact (h.bound s).2

theorem Sim.turns_iff (h : Sim P w net) {s : Side} (hd : Header) :
    net.Turns s hd.view ↔ (w.session s).Turns hd := by
  simp only [Ratchet.Net.Turns, ← h.session s]
  rw [show hd.view.n = hd.n.toNat from rfl, view_skipped_get]
  exact Iff.rfl

theorem forall₂_getElem? {α β : Type} {R : α → β → Prop} {l : List α} {l' : List β}
    (h : List.Forall₂ R l l') {i : ℕ} {x : α} (hx : l[i]? = some x) :
    ∃ y, l'[i]? = some y ∧ R x y := by
  induction h generalizing i with
  | nil => simp at hx
  | cons hR _ ih =>
    cases i with
    | zero =>
      obtain rfl : _ = x := by simpa using hx
      exact ⟨_, rfl, hR⟩
    | succ i => exact ih (by simpa using hx)

/-- A delivery is a delivery of the abstract network, and returns the plaintext. -/
theorem Sim.receive (h : Sim P w net)
    (hcomm : ∀ x y, P.dh x (P.publicBytes y) = P.dh y (P.publicBytes x))
    (haead : ∀ k nonce pt aad ct, P.encryptWithNonce k nonce pt aad = .ok ct →
      P.decryptWithNonce k nonce ct aad = .ok pt)
    {ss : Key} {a b : Priv} (hab : P.publicBytes a ≠ P.publicBytes b)
    (hrun : Relation.ReflTransGen (Ratchet.OnceStep P.kdf)
      (Ratchet.Net.init P.kdf (P.rootSeed ss) a b) net)
    {s : Side} {i : ℕ} {call : Call} {headerBytes : Bytes 40} {ciphertext : List UInt8}
    {generated : Priv} (hdel : w.Deliverable P s i call headerBytes ciphertext generated) :
    ∃ s' net', decrypt P headerBytes ciphertext generated (w.session s) = .ok call.plaintext s' ∧
      Ratchet.OnceStep P.kdf net net' ∧
      Sim P (w.receive P s i headerBytes ciphertext generated) net' := by
  have hmax : maxSkip.toNat = 1000 := rfl
  obtain ⟨wire, hlog, hsrc, hd, hview, hn, hout⟩ := forall₂_getElem? h.calls hdel.made
  rw [hdel.output] at hout
  cases henc : P.encryptWithNonce wire.key (P.deriveNonce wire.key) call.plaintext
      hd.encode.1 with
  | error e =>
    rw [henc] at hout
    cases hout
  | ok ct =>
    rw [henc] at hout
    obtain ⟨rfl, rfl⟩ := Prod.mk.inj (Except.ok.inj hout)
    have hfresh := hdel.fresh
    have hskip := hdel.skip
    rw [Header.decode_encode] at hfresh hskip
    have hwsrc : wire.src = s.peer := hsrc.symm.trans hdel.src
    have hwfresh : net.Turns s wire.header → P.kdf.pub generated ∉ net.used := by
      rw [← hview, h.turns_iff, ← h.used]
      exact hfresh
    have honce : i ∉ net.done := h.done ▸ hdel.once
    -- the abstract receiver takes the sender's key
    have hkey := Ratchet.once_recv hcomm hab hrun hlog hwsrc hwfresh honce
    obtain ⟨⟨E, sent, stage, hinv⟩, -⟩ := Ratchet.once_run hcomm hab hrun
    have hrecv : (w.session s).view.recv P.kdf hd.view generated =
        (some wire.key, ((net.party s).recv P.kdf wire.header generated).2) := by
      rw [h.session, hview, ← hkey]
    have hremote : (w.session s).ckr ≠ none → (w.session s).dhRemote ≠ none := by
      have := (hinv.stands s).remote_ne_none
      rwa [← h.session] at this
    have hnr : (w.session s).nr.toNat + 1000 < 2 ^ 32 := by
      have hle := hinv.nr_le s
      rw [← h.session, ← h.session] at hle
      simp only [Session.view] at hle
      have hb := h.bound s.peer
      omega
    obtain ⟨s', hs', hv'⟩ := receiveKey_view P hremote hnr (by omega) hskip hrecv
    have hdec : decrypt P hd.encode ciphertext generated (w.session s) = .ok call.plaintext s' := by
      rw [decrypt_eq, Header.decode_encode, hs']
      dsimp only
      rw [haead _ _ _ _ _ henc]
    refine ⟨s', _, hdec, .recv s i generated hlog hwsrc hwfresh honce, ?_⟩
    rw [World.receive, hdec, Header.decode_encode]
    refine ⟨h.update_session hv', h.calls, congrArg (i :: ·) h.done, ?_, h.update_bound ?_⟩
    · simp only [Ratchet.Net.deliver, ← hview, h.turns_iff, h.used]
      rfl
    · have hb := h.bound s
      have hcnt := (net.party s).recv_counters P.kdf wire.header generated
      rw [← hv', ← h.session] at hcnt
      simp only [Session.view] at hcnt
      simp only [EStateM.Result.state]
      omega

theorem sim_run (hcomm : ∀ x y, P.dh x (P.publicBytes y) = P.dh y (P.publicBytes x))
    (haead : ∀ k nonce pt aad ct, P.encryptWithNonce k nonce pt aad = .ok ct →
      P.decryptWithNonce k nonce ct aad = .ok pt)
    {ss : Key} {a b : Priv} (hab : P.publicBytes a ≠ P.publicBytes b) {w : World Priv Key}
    (hrun : Relation.ReflTransGen (Step P) (World.init P ss a b) w) :
    ∃ net, Sim P w net ∧ Relation.ReflTransGen (Ratchet.OnceStep P.kdf)
      (Ratchet.Net.init P.kdf (P.rootSeed ss) a b) net := by
  induction hrun with
  | refl => exact ⟨_, Sim.init P ss a b, .refl⟩
  | tail _ hstep ih =>
    obtain ⟨net, h, hnet⟩ := ih
    cases hstep with
    | encrypt s plaintext hchain hns =>
      obtain ⟨net', hs, h'⟩ := h.send plaintext hchain hns
      exact ⟨net', h', hnet.tail hs⟩
    | decrypt s i generated hdel =>
      obtain ⟨-, net', -, hs, h'⟩ := h.receive hcomm haead hab hnet hdel
      exact ⟨net', h', hnet.tail hs⟩

/-- **Delivery.** In every run, whatever was delayed, reordered or lost before,
`decrypt` returns the plaintext given to the call that produced the packet. -/
theorem decrypt_delivers (hcomm : ∀ x y, P.dh x (P.publicBytes y) = P.dh y (P.publicBytes x))
    (haead : ∀ k nonce pt aad ct, P.encryptWithNonce k nonce pt aad = .ok ct →
      P.decryptWithNonce k nonce ct aad = .ok pt)
    {ss : Key} {a b : Priv} (hab : P.publicBytes a ≠ P.publicBytes b) {w : World Priv Key}
    (hrun : Relation.ReflTransGen (Step P) (World.init P ss a b) w)
    {s : Side} {i : ℕ} {call : Call} {headerBytes : Bytes 40} {ciphertext : List UInt8}
    {generated : Priv} (hdel : w.Deliverable P s i call headerBytes ciphertext generated) :
    ∃ s', decrypt P headerBytes ciphertext generated (w.session s) = .ok call.plaintext s' := by
  obtain ⟨net, h, hnet⟩ := sim_run hcomm haead hab hrun
  obtain ⟨s', -, hdec, -⟩ := h.receive hcomm haead hab hnet hdel
  exact ⟨s', hdec⟩

/-- Alice's message `n` of her first chain, under the message key of `ck`. -/
def alicePacket (n : UInt32) (ck : Term) (byte : UInt8) : Bytes 40 × List UInt8 :=
  let header := Header.encode ⟨symbolic.publicBytes 1, 0, n⟩
  (header, (Term.message ck).encode ++ header.1 ++ [byte])

/-- Alice has sent two messages. -/
def sentTwo : World UInt8 Term :=
  ((World.init symbolic .secret 1 2).send symbolic .alice [65]).send symbolic .alice [66]

/-- Alice has sent two messages, and Bob was handed the second. -/
def overtaken : World UInt8 Term :=
  let packet := alicePacket 1 (.next (.chain (.seed .secret) (1, 2))) 66
  sentTwo.receive symbolic .bob 1 packet.1 packet.2 3

/-- The first message still arrives after the second. -/
theorem decrypt_delivers_overtaken :
    let packet := alicePacket 0 (.chain (.seed .secret) (1, 2)) 65
    ∃ s', decrypt symbolic packet.1 packet.2 4 (overtaken.session .bob) = .ok [65] s' := by
  have hrun : Relation.ReflTransGen (Step symbolic) (World.init symbolic .secret 1 2)
      sentTwo :=
    .tail (.tail .refl (.encrypt .alice [65] (by decide) (by decide)))
      (.encrypt .alice [66] (by decide) (by decide))
  have hsecond : sentTwo.Deliverable symbolic .bob 1
      ⟨.alice, [66], .ok (alicePacket 1 (.next (.chain (.seed .secret) (1, 2))) 66)⟩ _ _ 3 :=
    ⟨rfl, rfl, rfl, by decide, by decide, by decide⟩
  have hfirst : overtaken.Deliverable symbolic .bob 0
      ⟨.alice, [65], .ok (alicePacket 0 (.chain (.seed .secret) (1, 2)) 65)⟩ _ _ 4 :=
    ⟨rfl, rfl, rfl, by decide, by decide, by decide⟩
  exact decrypt_delivers symbolic.dh_comm symbolic.decrypt_encrypt (by decide)
    (hrun.tail (.decrypt .bob 1 3 hsecond)) hfirst

end AnonyMus.Rust
