import AnonyMus.Rust.Delivery
import AnonyMus.Rust.Pqxdh

/-!
# Rust core — sessions from PQXDH

`init_sender` and `init_receiver` of `double_ratchet.rs` with the secrets that the two
sides derive in `x3dh.rs`. Bob's first ratchet key is his signed pre-key.

* `World.established` — the sessions before the first message;
* `pqxdh_delivers` — every delivery in every run from there returns the plaintext.
-/

namespace AnonyMus.Rust

variable {Priv Kp Seed : Type}

/-- Each side has its own secret; `a` is the ratchet key that Alice generates. -/
def World.established {Dh Key Nonce : Type} (P : Primitives Priv Dh Key Nonce) (alice bob : Key)
    (a spkB : Priv) : World Priv Key :=
  { World.init P alice a spkB with
    session
      | .alice => initSender P alice (P.publicBytes spkB) a
      | .bob => initReceiver P bob spkB }

variable {hk : Hkdf} {publicBytes : Priv → Bytes 32} {dh : Priv → Bytes 32 → Bytes 32}
  {K : Kem Kp Seed}

/-- Bob, who uses the one-time key if Alice does, derives her secret. -/
theorem pqxdhRespond_of_initiate
    (hcomm : ∀ x y, dh x (publicBytes y) = dh y (publicBytes x)) {ikA ekA ikB spkB : Priv}
    {otkB : Option Priv} {kp : Kp} {seed : Seed}
    (hkem : ∀ ss ct, K.encapsulate (K.ekBytes kp) seed = .ok (ss, ct) →
      K.decapsulate kp ct = .ok ss) {r : PqxdhInitiatorResult}
    (hinitiate : pqxdhInitiate hk publicBytes dh K ikA (publicBytes ikB) (publicBytes spkB)
      (otkB.map publicBytes) (K.ekBytes kp) ekA seed = .ok r) :
    pqxdhRespond hk dh K ikB spkB otkB kp (publicBytes ikA) r.aliceEphemeralPub
      r.mlKemCiphertext = .ok r.sharedSecret := by
  obtain ⟨pqSecret, henc, hpub, hsecret⟩ := pqxdhInitiate_eq_ok hinitiate
  have hone : otkB.map (fun otk => dh otk (publicBytes ekA)) =
      (otkB.map publicBytes).map fun otk => dh ekA otk := by
    rw [Option.map_map]
    exact Option.map_congr fun otk _ => hcomm otk ekA
  rw [hsecret, pqxdhRespond, hkem _ _ henc, EStateM.except_ok_bind, hpub, hone, hcomm spkB ikA,
    hcomm ikB ekA, hcomm spkB ekA]
  rfl

/-- **From PQXDH to the conversation.** Alice initiates, Bob responds with the same keys, and each
begins a session with the secret that it has derived. In every run of the two sessions, whatever
is delayed, reordered or lost, `decrypt` returns the plaintext given to the call that produced
the packet. -/
theorem pqxdh_delivers (hcomm : ∀ x y, dh x (publicBytes y) = dh y (publicBytes x))
    {enc dec : Bytes 32 → Bytes 12 → List UInt8 → List UInt8 → Except AnonymusError (List UInt8)}
    (haead : ∀ k nonce pt aad ct, enc k nonce pt aad = .ok ct → dec k nonce ct aad = .ok pt)
    {ikA ekA ikB spkB a : Priv} {otkB : Option Priv} {kp : Kp} {seed : Seed}
    (hkem : ∀ ss ct, K.encapsulate (K.ekBytes kp) seed = .ok (ss, ct) →
      K.decapsulate kp ct = .ok ss) {r : PqxdhInitiatorResult}
    (hinitiate : pqxdhInitiate hk publicBytes dh K ikA (publicBytes ikB) (publicBytes spkB)
      (otkB.map publicBytes) (K.ekBytes kp) ekA seed = .ok r)
    (ha : publicBytes a ≠ publicBytes spkB) :
    ∃ secret, pqxdhRespond hk dh K ikB spkB otkB kp (publicBytes ikA) r.aliceEphemeralPub
        r.mlKemCiphertext = .ok secret ∧
      let P := Primitives.ofHkdf hk publicBytes dh enc dec
      ∀ w, Relation.ReflTransGen (Step P) (World.established P r.sharedSecret secret a spkB) w →
        ∀ s i call headerBytes ciphertext generated,
          w.Deliverable P s i call headerBytes ciphertext generated →
          ∃ s', decrypt P headerBytes ciphertext generated (w.session s) =
            .ok call.plaintext s' := by
  refine ⟨_, pqxdhRespond_of_initiate hcomm hkem hinitiate, ?_⟩
  intro P w hrun s i call headerBytes ciphertext generated hdel
  have hstart : World.established P r.sharedSecret r.sharedSecret a spkB =
      World.init P r.sharedSecret a spkB := rfl
  rw [hstart] at hrun
  obtain ⟨net, hsim, hnet⟩ := sim_run hcomm haead ha hrun
  obtain ⟨s', -, hdec, -⟩ := hsim.receive hcomm haead ha hnet hdel
  exact ⟨s', hdec⟩

/-- A ciphertext is opened with its own key and header. -/
def sampleDecrypt (key : Bytes 32) (_ : Bytes 12) (ct aad : List UInt8) :
    Except AnonymusError (List UInt8) :=
  if (key.1 ++ aad).isPrefixOf ct then .ok (ct.drop (key.1 ++ aad).length)
  else .error (.decrypt "tag")

def sampleSuite : Primitives UInt8 (Bytes 32) (Bytes 32) (Bytes 12) :=
  .ofHkdf lengthHkdf samplePublic sampleDh (fun key _ pt aad => .ok (key.1 ++ aad ++ pt))
    sampleDecrypt

/-- What Alice sends first. -/
def openingPacket (secret : Bytes 32) : Option (Bytes 40 × List UInt8) :=
  (encrypt sampleSuite [65] (initSender sampleSuite secret (samplePublic 4) 6)).value?

theorem pqxdh_delivers_first : ∃ secret packet s',
    pqxdhRespond lengthHkdf sampleDh sampleKem 3 4 (some 5) 9 (samplePublic 1) (samplePublic 2)
      [9, 7] = .ok secret ∧ openingPacket secret = some packet ∧
    decrypt sampleSuite packet.1 packet.2 8 (initReceiver sampleSuite secret 4) = .ok [65] s' := by
  have hcomm : ∀ x y, sampleDh x (samplePublic y) = sampleDh y (samplePublic x) := fun x y =>
    congrArg (Bytes.replicate 32) (UInt8.add_comm x y)
  obtain ⟨secret, hrespond, hdelivers⟩ := @pqxdh_delivers _ _ _ lengthHkdf samplePublic sampleDh
    sampleKem hcomm (fun key _ pt aad => .ok (key.1 ++ aad ++ pt)) sampleDecrypt
    (fun key nonce pt aad ct h => by
      cases h
      rw [sampleDecrypt, if_pos (List.isPrefixOf_iff_prefix.mpr (List.prefix_append _ _)),
        List.drop_left]) 1 2 3 4 6 (some 5) 9 7 (fun ss ct h => by cases h; rfl) _ rfl (by decide)
  obtain rfl := Except.ok.inj hrespond
  obtain ⟨s', hdec⟩ := hdelivers _ (.tail .refl (.encrypt .alice [65] (Option.some_ne_none _)
    (by decide))) .bob 0 ⟨.alice, [65], .ok _⟩ _ _ 8
    ⟨rfl, rfl, rfl, List.not_mem_nil, by decide +kernel, by decide +kernel⟩
  exact ⟨_, _, s', rfl, rfl, hdec⟩

end AnonyMus.Rust
