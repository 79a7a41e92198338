import AnonyMus.Lib.RatchetFresh
import AnonyMus.Rust.DoubleRatchet
import AnonyMus.Rust.Symbolic

/-!
# Rust core — replayed and forged packets

Two sessions of `core/rust/src/protocol/double_ratchet.rs` and an adversary who
hands either of them any bytes, any number of times. The AEAD is ideal: it
opens a packet under a key only if one of the two sessions sealed that packet
under that key.

* `Arena`, `ArenaStep` — the runs;
* `Unspent` — a session is ahead of every message key it ever used or stored,
  kept by every step of `decrypt` whatever the header says;
* `accepted_once` — what a side accepts was produced by its peer, and no
  oftener.
-/

namespace AnonyMus.Rust

open Ratchet (Side Free Fresh)

variable {Priv Dh Key Nonce : Type} (P : Primitives Priv Dh Key Nonce)

/-! ## Keys of one session -/

/-- The keys used for sending (`made`), taken for an AEAD call in `decrypt`
(`spent`) and stored are distinct, and `s` will derive none of them again. -/
def Unspent (rk₀ : Key) (s : Session Priv Key) (made spent : List Key) : Prop :=
  Fresh P.kdf rk₀ s.rk s.cks s.ckr (made ++ (spent ++ s.skipped.values))

section

variable {P} {rk₀ : Key} {s : Session Priv Key} {made spent : List Key}

/-- Skipping moves the keys it passes into the store. -/
theorem Unspent.skipLoop (hP : Free P.kdf rk₀) (till : UInt32) (fuel : ℕ) {ck : Key}
    (h : Unspent P rk₀ { s with ckr := some ck } made spent) :
    Unspent P rk₀ (skipLoop P till fuel ck s) made spent := by
  induction fuel generalizing ck s with
  | zero => exact h
  | succ fuel ih =>
    rw [Rust.skipLoop]
    split
    · apply ih
      refine (Fresh.recv hP h).sub ?_
      -- the new key goes to the end of the list
      have hins := s.skipped.values_insert_subperm
        ⟨s.dhRemote.getD (Bytes.replicate 32 0), s.nr⟩ (P.fromChain ck).1
      refine ((List.subperm_append_left made).mpr
        ((List.subperm_append_left spent).mpr hins)).trans ?_
      rw [← List.append_assoc, ← List.append_assoc]
      exact List.perm_middle.subperm
    · exact h

theorem Unspent.skipMessageKeys (hP : Free P.kdf rk₀) (till : UInt32)
    (h : Unspent P rk₀ s made spent) :
    Unspent P rk₀ (skipMessageKeys P till s).state made spent := by
  by_cases hskip : s.nr + maxSkip < till
  · rwa [skipMessageKeys_of_lt P hskip]
  · cases hckr : s.ckr with
    | none => rwa [skipMessageKeys_of_none P hskip hckr]
    | some ck =>
      rw [skipMessageKeys_of_some P hskip hckr]
      refine Unspent.skipLoop hP till _ ?_
      rwa [← hckr]

theorem Unspent.turnTo (hP : Free P.kdf rk₀) (header : Header) (generated : Priv)
    (h : Unspent P rk₀ s made spent) :
    Unspent P rk₀ (turnTo P header generated s).state made spent := by
  by_cases hd : some header.dhPublic = s.dhRemote
  · rwa [turnTo_of_eq P generated hd]
  · have hskip := h.skipMessageKeys hP header.pn
    rw [turnTo_of_ne P generated hd, EStateM.apply_bind]
    cases hrun : Rust.skipMessageKeys P header.pn s with
    | error e s₁ => rwa [hrun, EStateM.Result.state_error] at hskip
    | ok _ s₁ =>
      rw [hrun, EStateM.Result.state_ok] at hskip
      exact Fresh.ratchet hskip (P.dh s₁.dhSelf header.dhPublic)
        (P.dh generated header.dhPublic)

theorem Unspent.takeKey (hP : Free P.kdf rk₀) {mk : Key} {s' : Session Priv Key}
    (h : Unspent P rk₀ s made spent) (hrun : takeKey P s = .ok mk s') :
    Unspent P rk₀ s' made (mk :: spent) := by
  cases hckr : s.ckr with
  | none =>
    rw [takeKey_of_none P hckr] at hrun
    cases hrun
  | some ck =>
    rw [takeKey_of_some P hckr] at hrun
    cases hrun
    rw [Unspent, hckr] at h
    exact (Fresh.recv hP h).sub List.perm_middle.subperm

/-- Whatever the header, the message key `decrypt` takes is a new one, and a
call that fails before taking one derives no key for the AEAD. -/
theorem Unspent.receiveKey (hP : Free P.kdf rk₀) (header : Header) (generated : Priv)
    (h : Unspent P rk₀ s made spent) :
    match receiveKey P header generated s with
    | .ok mk s' => Unspent P rk₀ s' made (mk :: spent)
    | .error _ s' => Unspent P rk₀ s' made spent := by
  cases hstore : s.skipped.get? ⟨header.dhPublic, header.n⟩ with
  -- a stored key leaves the store as it is spent
  | some mk =>
    rw [receiveKey_of_stored P generated hstore]
    refine Fresh.sub h ((List.subperm_append_left made).mpr ?_)
    exact List.perm_middle.symm.subperm.trans
      ((List.subperm_append_left spent).mpr (Dict.values_erase_subperm hstore))
  | none =>
    -- otherwise each of the three steps of `receiveKey` keeps the sum, and any of them
    -- may fail
    have hturn := h.turnTo hP header generated
    rw [receiveKey_of_miss P generated hstore, EStateM.apply_bind]
    cases hrun : Rust.turnTo P header generated s with
    | error e s₁ => rwa [hrun, EStateM.Result.state_error] at hturn
    | ok _ s₁ =>
      rw [hrun, EStateM.Result.state_ok] at hturn
      have hskip := hturn.skipMessageKeys hP header.n
      dsimp only
      rw [EStateM.apply_bind]
      cases hrun₁ : Rust.skipMessageKeys P header.n s₁ with
      | error e s₂ => rwa [hrun₁, EStateM.Result.state_error] at hskip
      | ok _ s₂ =>
        rw [hrun₁, EStateM.Result.state_ok] at hskip
        dsimp only
        cases hrun₂ : Rust.takeKey P s₂ with
        | error e s₃ =>
          cases hckr : s₂.ckr with
          | none =>
            rw [takeKey_of_none P hckr] at hrun₂
            cases hrun₂
            exact hskip
          | some ck =>
            rw [takeKey_of_some P hckr] at hrun₂
            cases hrun₂
        | ok mk s₃ => exact hskip.takeKey hP hrun₂

theorem Unspent.encrypt (hP : Free P.kdf rk₀) {ck : Key} (hck : s.cks = some ck)
    (plaintext : List UInt8) (h : Unspent P rk₀ s made spent) :
    Unspent P rk₀ (encrypt P plaintext s).state ((P.fromChain ck).1 :: made) spent := by
  rw [encrypt_of_chain P hck]
  rw [Unspent, hck] at h
  cases P.encryptWithNonce (P.fromChain ck).1 (P.deriveNonce (P.fromChain ck).1) plaintext
    (Header.encode ⟨P.publicBytes s.dhSelf, s.pn, s.ns⟩).1 <;> exact Fresh.send hP h

end

/-! ## Runs with an adversary -/

structure Packet where
  header     : Bytes 40
  ciphertext : List UInt8
deriving DecidableEq

/-- Both sessions, every packet each of them produced, with the message key it
was sealed under, and the packets each of them accepted. -/
structure Arena (Priv Key : Type) where
  session  : Side → Session Priv Key
  produced : Side → List (Key × Packet)
  accepted : Side → List Packet

namespace Arena

def init (ss : Key) (a b : Priv) : Arena Priv Key where
  session
    | .alice => initSender P ss (P.publicBytes b) a
    | .bob => initReceiver P ss b
  produced _ := []
  accepted _ := []

/-- Side `s` encrypts, if it has a sending chain. -/
def send (w : Arena Priv Key) (s : Side) (plaintext : List UInt8) : Arena Priv Key :=
  let result := encrypt P plaintext (w.session s)
  { w with
    session := Function.update w.session s result.state
    produced := match (w.session s).cks, result with
      | some ck, .ok out _ =>
        Function.update w.produced s
          (((P.fromChain ck).1, ⟨out.1, out.2⟩) :: w.produced s)
      | _, _ => w.produced }

/-- Side `s` is handed `packet`. -/
def receive (w : Arena Priv Key) (s : Side) (packet : Packet) (generated : Priv) :
    Arena Priv Key :=
  let result := decrypt P packet.header packet.ciphertext generated (w.session s)
  { w with
    session := Function.update w.session s result.state
    accepted := match result with
      | .ok _ _ => Function.update w.accepted s (packet :: w.accepted s)
      | .error _ _ => w.accepted }

/-- The AEAD is ideal in this call: if it opens the packet under the message
key, then one of the sides sealed this packet under this key. -/
def Ideal (w : Arena Priv Key) (s : Side) (packet : Packet) (generated : Priv) : Prop :=
  ∀ mk s' plaintext,
    receiveKey P (Header.decode packet.header) generated (w.session s) = .ok mk s' →
    P.decryptWithNonce mk (P.deriveNonce mk) packet.ciphertext packet.header.1 =
      .ok plaintext →
    ∃ src, (mk, packet) ∈ w.produced src

end Arena

/-- A side encrypts, or the adversary hands it a packet of any bytes. -/
inductive ArenaStep : Arena Priv Key → Arena Priv Key → Prop
  | encrypt {w} (s : Side) (plaintext : List UInt8) : ArenaStep w (w.send P s plaintext)
  | decrypt {w} (s : Side) (packet : Packet) (generated : Priv)
      (hideal : w.Ideal P s packet generated) : ArenaStep w (w.receive P s packet generated)

/-! ## The invariant -/

/-- Side `s` never reuses a key, and each packet it accepted was opened with
another key and sealed under that key by its peer. -/
structure Guarded (rk₀ : Key) (w : Arena Priv Key) (s : Side) (made spent : List Key)
    (opened : List (Key × Packet)) : Prop where
  unspent  : Unspent P rk₀ (w.session s) made spent
  produced : (w.produced s).map Prod.fst ⊆ made
  accepted : opened.map Prod.snd = w.accepted s
  keys     : opened.map Prod.fst ⊆ spent
  nodup    : (opened.map Prod.fst).Nodup
  genuine  : opened ⊆ w.produced s.peer

theorem Guarded.init (ss : Key) (a b : Priv) (s : Side) :
    Guarded P (P.rootSeed ss) (Arena.init P ss a b) s [] [] [] where
  unspent := by
    cases s with
    | alice => exact Fresh.initSender _
    | bob => exact Fresh.initReceiver
  produced := List.nil_subset _
  accepted := rfl
  keys := List.nil_subset _
  nodup := List.nodup_nil
  genuine := List.nil_subset _

section

variable {P} {rk₀ : Key} {w : Arena Priv Key} {s : Side} {made spent : List Key}
  {opened : List (Key × Packet)}

/-- Another side's move that only adds to what was produced. -/
theorem Guarded.frame (h : Guarded P rk₀ w s made spent opened) {w' : Arena Priv Key}
    (hsession : w'.session s = w.session s) (hproduced : w'.produced s = w.produced s)
    (haccepted : w'.accepted s = w.accepted s)
    (hpeer : w.produced s.peer ⊆ w'.produced s.peer) :
    Guarded P rk₀ w' s made spent opened where
  unspent := by rw [hsession]; exact h.unspent
  produced := by rw [hproduced]; exact h.produced
  accepted := by rw [haccepted]; exact h.accepted
  keys := h.keys
  nodup := h.nodup
  genuine := List.Subset.trans h.genuine hpeer

theorem Arena.send_of_none {plaintext : List UInt8} (hck : (w.session s).cks = none) :
    w.send P s plaintext = w := by
  rw [Arena.send, encrypt_of_none P hck, hck, EStateM.Result.state_error,
    Function.update_eq_self]

/-- A side with a chain adds at most one packet, under the key at its head. -/
theorem Arena.send_produced (plaintext : List UInt8) {ck : Key}
    (hck : (w.session s).cks = some ck) :
    ∃ new : List (Key × Packet), (∀ e ∈ new, e.1 = (P.fromChain ck).1) ∧
      (w.send P s plaintext).produced = Function.update w.produced s (new ++ w.produced s) := by
  rw [Arena.send, encrypt_of_chain P hck, hck]
  cases P.encryptWithNonce (P.fromChain ck).1 (P.deriveNonce (P.fromChain ck).1) plaintext
    (Header.encode ⟨P.publicBytes (w.session s).dhSelf, (w.session s).pn,
      (w.session s).ns⟩).1 with
  | error e => exact ⟨[], by simp, (Function.update_eq_self ..).symm⟩
  | ok ct => exact ⟨[_], by simp, rfl⟩

theorem Guarded.send (hP : Free P.kdf rk₀)
    (hall : ∀ s, ∃ made spent opened, Guarded P rk₀ w s made spent opened)
    (s : Side) (plaintext : List UInt8) (s' : Side) :
    ∃ made spent opened, Guarded P rk₀ (w.send P s plaintext) s' made spent opened := by
  cases hck : (w.session s).cks with
  | none =>
    rw [Arena.send_of_none hck]
    exact hall s'
  | some ck =>
    -- a sending chain makes one more key
    obtain ⟨new, hnew, hprod⟩ := Arena.send_produced plaintext hck
    obtain ⟨made, spent, opened, h⟩ := hall s'
    rcases Side.eq_or_eq_peer s s' with rfl | rfl
    -- for the sender the key is one that it made
    · refine ⟨(P.fromChain ck).1 :: made, spent, opened, ?_, ?_, h.accepted, h.keys, h.nodup,
        ?_⟩
      · simp only [Arena.send, Function.update_self]
        exact h.unspent.encrypt hP hck plaintext
      · rw [hprod, Function.update_self, List.map_append]
        refine List.append_subset.mpr ⟨fun k hk => ?_, fun k hk =>
          List.mem_cons_of_mem _ (h.produced hk)⟩
        obtain ⟨e, he, rfl⟩ := List.mem_map.mp hk
        exact hnew e he ▸ List.mem_cons_self ..
      · rw [hprod, Function.update_of_ne (Side.peer_ne s')]
        exact h.genuine
    -- for its peer it is one more ciphertext that is genuine
    · refine ⟨made, spent, opened, h.frame ?_ ?_ rfl ?_⟩
      · exact Function.update_of_ne (Side.peer_ne s) ..
      · rw [hprod, Function.update_of_ne (Side.peer_ne s)]
      · rw [hprod, Side.peer_peer, Function.update_self]
        exact List.subset_append_right _ _

/-- What a call of `decrypt` does to its side: the key it takes is spent, and if
it accepts the packet then the peer sealed it under that key. -/
theorem Guarded.receive_self (hP : Free P.kdf rk₀)
    (h : Guarded P rk₀ w s made spent opened) {packet : Packet} {generated : Priv}
    (hideal : w.Ideal P s packet generated) :
    ∃ spent opened, Guarded P rk₀ (w.receive P s packet generated) s made spent opened := by
  have hkey := h.unspent.receiveKey hP (Header.decode packet.header) generated
  have hdec := decrypt_eq P packet.header packet.ciphertext generated (w.session s)
  cases hrun : receiveKey P (Header.decode packet.header) generated (w.session s) with
  | error e s₁ =>
    rw [hrun] at hkey hdec
    refine ⟨spent, opened, ?_, h.produced, ?_, h.keys, h.nodup, h.genuine⟩
    · simp only [Arena.receive, Function.update_self, hdec]
      exact hkey
    · simp only [Arena.receive, hdec]
      exact h.accepted
  | ok mk s₁ =>
    rw [hrun] at hkey hdec
    dsimp only at hkey hdec
    cases hopen : P.decryptWithNonce mk (P.deriveNonce mk) packet.ciphertext packet.header.1 with
    | error e =>
      rw [hopen] at hdec
      refine ⟨mk :: spent, opened, ?_, h.produced, ?_,
        List.Subset.trans h.keys (List.subset_cons_self _ _), h.nodup, h.genuine⟩
      · simp only [Arena.receive, Function.update_self, hdec]
        exact hkey
      · simp only [Arena.receive, hdec]
        exact h.accepted
    | ok plaintext =>
      rw [hopen] at hdec
      -- the key is new: not one this side sealed with, not one it opened with before
      have hnd := hkey.nodup
      rw [List.cons_append, List.nodup_append] at hnd
      obtain ⟨-, hnd, hdisj⟩ := hnd
      rw [List.nodup_cons, List.mem_append, not_or] at hnd
      have hown : (mk, packet) ∉ w.produced s := fun hmem =>
        hdisj mk (h.produced (List.mem_map_of_mem hmem)) mk (List.mem_cons_self ..) rfl
      have hpeer : (mk, packet) ∈ w.produced s.peer := by
        obtain ⟨src, hsrc⟩ := hideal mk s₁ plaintext hrun hopen
        rcases Side.eq_or_eq_peer s src with rfl | rfl
        · exact absurd hsrc hown
        · exact hsrc
      refine ⟨mk :: spent, (mk, packet) :: opened, ?_, h.produced, ?_, ?_, ?_, ?_⟩
      · simp only [Arena.receive, Function.update_self, hdec]
        exact hkey
      · simp only [Arena.receive, hdec, Function.update_self, List.map_cons, h.accepted]
      · exact List.cons_subset_cons _ h.keys
      · exact List.nodup_cons.mpr ⟨fun hmem => hnd.1.1 (h.keys hmem), h.nodup⟩
      · exact List.cons_subset.mpr ⟨hpeer, h.genuine⟩

theorem Guarded.receive (hP : Free P.kdf rk₀)
    (hall : ∀ s, ∃ made spent opened, Guarded P rk₀ w s made spent opened)
    (s : Side) {packet : Packet} {generated : Priv} (hideal : w.Ideal P s packet generated)
    (s' : Side) :
    ∃ made spent opened,
      Guarded P rk₀ (w.receive P s packet generated) s' made spent opened := by
  obtain ⟨made, spent, opened, h⟩ := hall s'
  rcases Side.eq_or_eq_peer s s' with rfl | rfl
  · obtain ⟨spent', opened', h'⟩ := h.receive_self hP hideal
    exact ⟨made, spent', opened', h'⟩
  · refine ⟨made, spent, opened, h.frame ?_ rfl ?_ (List.Subset.refl _)⟩
    · exact Function.update_of_ne (Side.peer_ne s) ..
    · rw [Arena.receive]
      cases decrypt P packet.header packet.ciphertext generated (w.session s) with
      | ok _ _ => exact Function.update_of_ne (Side.peer_ne s) ..
      | error _ _ => rfl

end

variable {P} in
/-- **Replay safety.** Whatever was delivered, and however often, the packets a
side has accepted were produced by its peer, each accepted no oftener than it
was produced. -/
theorem accepted_once {ss : Key} (hP : Free P.kdf (P.rootSeed ss)) {a b : Priv}
    {w : Arena Priv Key}
    (hrun : Relation.ReflTransGen (ArenaStep P) (Arena.init P ss a b) w) (s : Side) :
    (w.accepted s).Subperm ((w.produced s.peer).map Prod.snd) := by
  have hall : ∀ s, ∃ made spent opened,
      Guarded P (P.rootSeed ss) w s made spent opened := by
    induction hrun with
    | refl => exact fun s => ⟨_, _, _, Guarded.init P ss a b s⟩
    | tail _ hstep ih =>
      cases hstep with
      | encrypt s plaintext => exact Guarded.send hP ih s plaintext
      | decrypt s packet generated hideal => exact Guarded.receive hP ih s hideal
  obtain ⟨made, spent, opened, h⟩ := hall s
  rw [← h.accepted]
  obtain ⟨l, hperm, hsub⟩ := (h.nodup.of_map _).subperm h.genuine
  exact ⟨l.map Prod.snd, hperm.map _, hsub.map _⟩

theorem symbolic.free (ss : Term) : Free symbolic.kdf (symbolic.rootSeed ss) where
  start _ _ h := Term.noConfusion h
  root _ _ _ _ h := (Term.root.inj h).1
  chain _ _ _ _ h := (Term.chain.inj h).1
  opens _ _ _ h := Term.noConfusion h
  next _ _ h := Term.next.inj h
  key _ _ h := Term.message.inj h

/-- Alice's first packet. -/
def firstPacket : Packet :=
  let header := Header.encode ⟨symbolic.publicBytes 1, 0, 0⟩
  ⟨header, (Term.message (.chain (.seed .secret) (1, 2))).encode ++ header.1 ++ [65]⟩

/-- Alice has sent one packet, which Bob is handed twice. -/
def replayed : Arena UInt8 Term :=
  (((Arena.init symbolic .secret 1 2).send symbolic .alice [65]).receive symbolic .bob
    firstPacket 3).receive symbolic .bob firstPacket 4

theorem accepted_once_replayed :
    (replayed.accepted .bob).Subperm ((replayed.produced .alice).map Prod.snd) ∧
      replayed.accepted .bob = [firstPacket] := by
  refine ⟨accepted_once (symbolic.free .secret) (.tail (.tail (.tail .refl
    (.encrypt .alice [65])) (.decrypt .bob firstPacket 3 ?_)) (.decrypt .bob firstPacket 4 ?_))
    .bob, by decide⟩
  · intro mk s' plaintext hrun hopen
    cases hrun
    exact ⟨.alice, by decide⟩
  · intro mk s' plaintext hrun hopen
    cases hrun
    have hfail : Except.error (AnonymusError.decrypt "aead::Error") = Except.ok plaintext := hopen
    cases hfail

end AnonyMus.Rust
