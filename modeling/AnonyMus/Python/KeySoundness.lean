import AnonyMus.Python.KeyAgreement

/-!
# Python core — message keys under duplicate deliveries

`decrypt` does not compare the number of a header with `seq_recv`, and does not
remember the keys it has ratcheted away from. It is sound on the headers it can
still place, and on no others.

* `World.Placeable` — the headers that `decrypt` can place, or refuses outright;
* `decrypt_sound` — in every run of such deliveries a call raises and changes
  nothing, or returns the sender's key;
* `decrypt_replayed` — one header delivered twice.
-/

namespace AnonyMus.Python

open Ratchet (Side Wire)

variable {Priv : Type}

/-- The call raised and left the session `s` alone, or it returned `key`. -/
def KeySound (s : DoubleRatchetSession Priv) (key : Bytes 32)
    (r : EStateM.Result PyError (DoubleRatchetSession Priv) (List UInt8)) : Prop :=
  (∃ e, r = .error e s) ∨ ∃ s', r = .ok key.1 s'

/-- The key of the header is stored; or the header belongs to the current chain
and its number has not been passed; or it carries a new ratchet key, and either
its `pn` is refused, or the key was not ratcheted away from and its number is
at most 100. -/
def World.Placeable (w : World Priv) (s : Side) (_ : ℕ) (hd : Ratchet.Header (Bytes 32)) : Prop :=
  let session := w.session s
  Stored session hd ∨ (session.dhRemote = some hd.dh ∧ session.seqRecv ≤ hd.n) ∨
    (session.dhRemote ≠ some hd.dh ∧
      (TooFar session hd.pn ∨ hd.dh ∉ w.retired s ∧ hd.n ≤ 100))

/-- The first check of `decrypt` fails on this header. -/
def Refused (s : DoubleRatchetSession Priv) (hd : Ratchet.Header (Bytes 32)) : Prop :=
  ¬ Stored s hd ∧ if s.dhRemote = some hd.dh then TooFar s hd.n else TooFar s hd.pn

section

variable {C : Crypto Priv} {w w₀ : World Priv}
  {net : Ratchet.Net Priv (Bytes 32) (List UInt8) (Bytes 32) (Bytes 32)}
  {E : List (Ratchet.Epoch Priv (List UInt8) (Bytes 32))} {sent : ℕ → ℕ} {stage : Side → ℕ}
  {s : Side} {i : ℕ} {wire : Wire (Bytes 32) (Bytes 32)} {generated : Priv}

/-- A placeable header that is not refused is within the bounds and timely. -/
theorem Sim.within_timely (h : Sim w net) {hd : Ratchet.Header (Bytes 32)}
    (hplace : w.Placeable s i hd) (hrefused : ¬ Refused (w.session s) hd) :
    WithinSkip (w.session s) hd ∧ net.Timely s hd := by
  have hstored := (h.session s).stored_iff hd
  have hremote : (w.session s).dhRemote = (net.party s).remote := (h.session s).remote
  have hnr : (w.session s).seqRecv = (net.party s).nr := (h.session s).nr
  by_cases hst : Stored (w.session s) hd
  · exact ⟨fun hx => absurd hst hx, Or.inl (hstored.mp hst)⟩
  have hpass : ¬ if (w.session s).dhRemote = some hd.dh then TooFar (w.session s) hd.n
      else TooFar (w.session s) hd.pn := fun hx => hrefused ⟨hst, hx⟩
  rcases hplace with hx | ⟨hd', hn⟩ | ⟨hd', hx⟩
  · exact absurd hx hst
  · rw [if_pos hd'] at hpass
    refine ⟨fun _ => ?_, Or.inr (Or.inl ⟨hd'.symm.trans hremote, hnr ▸ hn⟩)⟩
    rwa [if_pos hd']
  · rw [if_neg hd'] at hpass
    obtain ⟨hret, hn⟩ := hx.resolve_left hpass
    refine ⟨fun _ => ?_, Or.inr (Or.inr ⟨fun heq => hd' (hremote.trans heq.symm), ?_⟩)⟩
    · rw [if_neg hd']
      exact ⟨hpass, hn⟩
    · rwa [← h.retired]

variable (i generated) in
/-- A refused delivery changes nothing. -/
theorem result_of_refused {hd : Ratchet.Header (Bytes 32)}
    (hrefused : Refused (w.session s) hd) :
    w.result C s hd generated =
        .error (.valueError "Too many skipped messages, refusing to ratchet.") (w.session s) ∧
      w.receive C s i hd generated = { w with done := i :: w.done } := by
  obtain ⟨hst, hfar⟩ := hrefused
  have hrun := decrypt_of_refused C (not_not.mp hst) hfar generated
  have hno : ¬ Ratchets (w.session s) hd := by
    rintro ⟨-, hne, hnot⟩
    rw [if_neg hne] at hfar
    exact hnot hfar
  refine ⟨hrun, ?_⟩
  simp only [World.receive, World.result, hrun, EStateM.Result.state, if_neg hno,
    Function.update_eq_self]

/-- A placeable delivery is sound, and a short run of the abstract network
follows it: nothing, or a delivery and the loss of the evicted keys. -/
theorem Sim.receive_placeable (h : Sim w net) (hinv : Ratchet.Inv C.kdf net E sent stage)
    (hagrees : C.Agrees) (hdel : w.Deliverable C s i wire generated)
    (hplace : w.Placeable s i wire.header) :
    KeySound (w.session s) wire.key (w.result C s wire.header generated) ∧
      ∃ net', Relation.ReflTransGen (Ratchet.Step C.kdf) net net' ∧
        Sim (w.receive C s i wire.header generated) net' := by
  by_cases hrefused : Refused (w.session s) wire.header
  · obtain ⟨hresult, hreceive⟩ := result_of_refused (C := C) i generated hrefused
    refine ⟨Or.inl ⟨_, hresult⟩, net, .refl, ?_⟩
    rw [hreceive]
    exact ⟨h.session, h.log, h.retired, h.used⟩
  · obtain ⟨hwithin, htime⟩ := h.within_timely hplace hrefused
    obtain ⟨hfresh, hlog, s', kept, hs', hkept, -, hsim⟩ :=
      h.receive hinv hagrees hdel hwithin htime False False.elim
    refine ⟨Or.inr ⟨s', hs'⟩, _, ?_, hsim⟩
    exact (Relation.ReflTransGen.single (.recv s i generated hlog hdel.src hfresh htime)).tail
      (.evict s kept hkept)

theorem placeable_run (hagrees : C.Agrees) {ss : List UInt8} {a b : Priv}
    (hab : C.publicBytes a ≠ C.publicBytes b) (hinit : World.init C ss a b = .ok w₀)
    (hrun : Relation.ReflTransGen (Step C World.Placeable) w₀ w) :
    ∃ net, Sim w net ∧
      Relation.ReflTransGen (Ratchet.Step C.kdf) (Ratchet.Net.init C.kdf ss a b) net := by
  induction hrun with
  | refl => exact ⟨_, Sim.init hagrees hinit, .refl⟩
  | tail _ hstep ih =>
    obtain ⟨net, h, hnet⟩ := ih
    cases hstep with
    | encrypt s =>
      rcases h.send (C := C) s with hsame | ⟨key, hd, p, hsend, -, h'⟩
      · rw [hsame]
        exact ⟨net, h, hnet⟩
      · exact ⟨_, h', hnet.tail (.send s hsend)⟩
    | decrypt s i generated hdel hplace =>
      obtain ⟨E, sent, stage, hinv⟩ := Ratchet.Inv.run hagrees.dh_comm hab hnet
      obtain ⟨-, net', hnext, h'⟩ := h.receive_placeable hinv hagrees hdel hplace
      exact ⟨net', h', hnet.trans hnext⟩

/-- **Key soundness.** In every run whose deliveries are placeable, in any
order and any number of times, every delivery raises and leaves the session
alone, or returns the key that the sender used with the header. -/
theorem decrypt_sound (hagrees : C.Agrees) {ss : List UInt8} {a b : Priv}
    (hab : C.publicBytes a ≠ C.publicBytes b) (hinit : World.init C ss a b = .ok w₀)
    (hrun : Relation.ReflTransGen (Step C World.Placeable) w₀ w)
    (hdel : w.Deliverable C s i wire generated) (hplace : w.Placeable s i wire.header) :
    KeySound (w.session s) wire.key (w.result C s wire.header generated) := by
  obtain ⟨net, h, hnet⟩ := placeable_run hagrees hab hinit hrun
  obtain ⟨E, sent, stage, hinv⟩ := Ratchet.Inv.run hagrees.dh_comm hab hnet
  exact (h.receive_placeable hinv hagrees hdel hplace).1

end

/-- Bob was handed Alice's first header. -/
def readOnce : World UInt8 :=
  (sampleStart.send sample .alice).receive sample .bob 0 (aliceWire 0).header 3

/-- Alice's second header then yields its key, too. -/
theorem decrypt_sound_next :
    KeySound ((readOnce.send sample .alice).session .bob) (aliceWire 1).key
      ((readOnce.send sample .alice).result sample .bob (aliceWire 1).header 4) := by
  have hfirst : (sampleStart.send sample .alice).Deliverable sample .bob 0 (aliceWire 0) 3 :=
    ⟨by decide +kernel, rfl, by decide +kernel⟩
  have hsecond : (readOnce.send sample .alice).Deliverable sample .bob 1 (aliceWire 1) 4 :=
    ⟨by decide +kernel, rfl, by decide +kernel⟩
  have hrun : Relation.ReflTransGen (Step sample World.Placeable) sampleStart
      (readOnce.send sample .alice) :=
    ((Relation.ReflTransGen.single (.encrypt .alice)).tail
      (.decrypt .bob 0 3 hfirst (Or.inr (Or.inr (by decide +kernel))))).tail (.encrypt .alice)
  exact decrypt_sound sample_agrees (by decide) sampleStart_init hrun hsecond
    (Or.inr (Or.inl (by decide +kernel)))

/-- Handed the first header once more, Bob takes the key of the second message
for it and advances his chain. -/
theorem decrypt_replayed :
    ∃ w, Relation.ReflTransGen (Step sample fun _ _ _ _ => True) sampleStart w ∧
      w.Deliverable sample .bob 0 (aliceWire 0) 4 ∧
      ¬ KeySound (w.session .bob) (aliceWire 0).key
        (w.result sample .bob (aliceWire 0).header 4) := by
  have hfirst : (sampleStart.send sample .alice).Deliverable sample .bob 0 (aliceWire 0) 3 :=
    ⟨by decide +kernel, rfl, by decide +kernel⟩
  refine ⟨readOnce, ?_, ⟨by decide +kernel, rfl, by decide +kernel⟩, ?_⟩
  · exact (Relation.ReflTransGen.single (.encrypt .alice)).tail (.decrypt .bob 0 3 hfirst trivial)
  · have hwrong : (readOnce.result sample .bob (aliceWire 0).header 4).value? =
        some (aliceWire 1).key.1 := by decide +kernel
    rintro (⟨e, hr⟩ | ⟨s', hr⟩)
    · rw [hr] at hwrong
      cases hwrong
    · rw [hr] at hwrong
      exact absurd (Option.some.inj hwrong) (by decide)

end AnonyMus.Python
