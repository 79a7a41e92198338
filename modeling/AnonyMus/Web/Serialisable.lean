import AnonyMus.Web.Lockstep
import AnonyMus.Web.Overlap

/-!
# Web client — calls in some order

Whether calls that overlap leave the sessions as they would one after another. A
save puts a session into the place of another one, and takes back what that one
has gained since the call has loaded it.

* `Advances` — what calls do to sessions that no other call touches meanwhile;
* `Placed` — no two messages of a conversation have the same place in the ratchet;
* `Serialisable` — the sessions and the keys used are those of some order of the
  calls, and no save undoes another;
* `serialisable_of_apart` — so it is if a call accesses the sessions only while no
  other one is between its first access and its last;
* `overlapping_sends` — two calls of `sendMessage` that are not apart use one key.
-/

namespace AnonyMus.Web.Overlap

open EStateM Serial
open Binary64 (round64 round64_of_le)

/-! ## Where a session sends -/

/-- The public key under which a session sends, and the number of its next message. -/
def head (session : DoubleRatchetSession) : Option (List UInt8) × ℕ :=
  (session.dhPublicKey, session.seqSend)

def headOf (stored : Option SessionJson) : Option (List UInt8) × ℕ :=
  (stored.map fun stored => head (deserialize stored)).getD (none, 0)

section

variable {W : Platform} {session session' : DoubleRatchetSession}

theorem head_skipRound : Keeps head (skipRound W) := by
  refine Keeps.get fun s => ?_
  rcases s.receivingChainKey with _ | receivingChainKey
  · rfl
  dsimp only
  refine (Keeps.bind (Keeps.ofExcept _) fun keys => ?_) s
  refine Keeps.bind (Keeps.modify fun _ => rfl) fun _ => ?_
  refine Keeps.get fun s => ?_
  rcases s.dhRemotePublicKey with _ | dhRemotePublicKey
  · rfl
  · rfl

theorem head_skipLoop (untilSeq : ℤ) (fuel : ℕ) : Keeps head (skipLoop W untilSeq fuel) := by
  induction fuel with
  | zero => exact Keeps.pure _
  | succ fuel ih =>
    refine Keeps.get fun s => ?_
    exact (Keeps.ite (Keeps.bind head_skipRound fun _ => ih) (Keeps.pure _)) s

theorem head_skipMessages (untilSeq : ℤ) : Keeps head (skipMessages W untilSeq) := by
  refine Keeps.get fun s => ?_
  rcases s.receivingChainKey with _ | receivingChainKey
  · rfl
  dsimp only
  split_ifs
  · rfl
  · exact head_skipLoop _ _ s

theorem head_takeKey : Keeps head (takeKey W) := by
  refine Keeps.get fun s => ?_
  rcases s.receivingChainKey with _ | receivingChainKey
  · rfl
  dsimp only
  refine (Keeps.bind (Keeps.ofExcept _) fun keys => ?_) s
  exact Keeps.bind (Keeps.modify fun _ => rfl) fun _ => Keeps.pure _

/-- A step of the DH ratchet sends under the new key from the beginning. -/
theorem head_ratchetStep {peerDhPub : List UInt8} {keyPair : KeyPair}
    (h : ratchetStep W peerDhPub keyPair session = .ok ⟨⟩ session') :
    head session' = (some keyPair.publicKey.1, 0) := by
  unfold ratchetStep at h
  rw [apply_bind, apply_modify] at h
  dsimp only at h
  rw [apply_bind, apply_get] at h
  -- without a private key or a root key the step fails
  dsimp only at h
  rcases hprivate : session.dhPrivateKey with _ | dhPrivateKey
  · rw [hprivate] at h
    cases h
  rcases hroot : session.rootKey with _ | rootKey
  · rw [hprivate, hroot] at h
    cases h
  rw [hprivate, hroot] at h
  -- the receiving half keeps the key to send under, the sending half replaces it
  dsimp only at h
  obtain ⟨dhOut1, s₁, -, h⟩ := ok_of_bind h
  obtain ⟨⟨rootKey, receivingChainKey⟩, s₂, -, h⟩ := ok_of_bind h
  dsimp only at h
  rw [apply_bind, apply_modify] at h
  dsimp only at h
  rw [apply_bind, apply_modify] at h
  dsimp only at h
  obtain ⟨dhOut2, s₃, hdh, h⟩ := ok_of_bind h
  obtain ⟨⟨rootKey', sendingChainKey⟩, s₄, hderive, h⟩ := ok_of_bind h
  obtain rfl := eq_of_ofExcept hdh
  obtain rfl := eq_of_ofExcept hderive
  dsimp only at h
  rw [apply_bind, apply_modify] at h
  cases h
  rfl

/-- `decrypt` leaves the place of the next message as it is, or starts under the new key. -/
theorem head_decrypt {peerDhPub iv ciphertext : List UInt8} {seq prevChainLen : ℤ}
    {keyPair : KeyPair} {plaintext : String}
    (h : decrypt W peerDhPub iv ciphertext seq prevChainLen keyPair session =
      .ok plaintext session') :
    head session' = head session ∨ head session' = (some keyPair.publicKey.1, 0) := by
  obtain ⟨messageKey, s₁, hkey, hopen⟩ := ok_of_bind h
  obtain rfl := eq_of_ofExcept hopen
  -- without a stored key only the ratchet step can move the place
  have hmiss : (do
      turnTo W peerDhPub prevChainLen keyPair
      skipMessages W seq
      takeKey W) session = .ok messageKey session' →
      head session' = head session ∨ head session' = (some keyPair.publicKey.1, 0) := by
    intro hkey
    obtain ⟨⟨⟩, s₂, hturn, hkey⟩ := ok_of_bind hkey
    obtain ⟨⟨⟩, s₃, hskip, htake⟩ := ok_of_bind hkey
    have hskipped := head_skipMessages (W := W) seq s₂
    rw [hskip, Result.state_ok] at hskipped
    have htaken := head_takeKey (W := W) s₃
    rw [htake, Result.state_ok] at htaken
    rw [htaken, hskipped]
    unfold turnTo at hturn
    rw [apply_bind, apply_get] at hturn
    dsimp only at hturn
    split_ifs at hturn
    · obtain ⟨⟨⟩, s₄, -, hratchet⟩ := ok_of_bind hturn
      exact .inr (head_ratchetStep hratchet)
    · cases hturn
      exact .inl rfl
  unfold receiveKey at hkey
  rw [apply_bind, apply_get] at hkey
  dsimp only at hkey
  -- an empty list of stored keys is treated as none
  rcases hstored : session.skippedMessageKeys.get? (skipKey peerDhPub seq) with _ | _ | ⟨c, rest⟩
  · rw [hstored] at hkey
    exact hmiss hkey
  · rw [hstored] at hkey
    exact hmiss hkey
  · rw [hstored] at hkey
    cases hkey
    exact .inl rfl

/-- `encrypt` needs a key to send under, and counts on. -/
theorem head_encrypt {plaintext : String} {random : (n : ℕ) → Bytes n} {nonce : Bytes 12}
    {enc : Web.Sealed} (h : encrypt W plaintext random nonce session = .ok enc session') :
    ∃ dhPublicKey, head session = (some dhPublicKey, enc.seq) ∧
      enc.dhPubB64 = b64encode dhPublicKey ∧
      head session' = (some dhPublicKey, round64 (enc.seq + 1)) := by
  unfold encrypt at h
  rw [apply_bind, apply_get] at h
  -- without a sending chain the call fails before it counts
  dsimp only at h
  rcases hchain : session.sendingChainKey with _ | sendingChainKey
  · rw [hchain] at h
    cases h
  rw [hchain] at h
  dsimp only at h
  obtain ⟨⟨messageKey, chainKey⟩, s₁, hstep, hrest⟩ := ok_of_bind h
  obtain rfl := eq_of_ofExcept hstep
  rw [apply_bind, apply_modify] at hrest
  dsimp only at hrest
  obtain ⟨encryptedBytes, s₂, hseal, hsent⟩ := ok_of_bind hrest
  obtain rfl := eq_of_ofExcept hseal
  rw [apply_bind, apply_get] at hsent
  dsimp only at hsent
  rw [apply_bind, apply_modify] at hsent
  dsimp only at hsent
  rw [apply_bind, apply_get] at hsent
  -- it fails as well where the session has no public key to send along
  dsimp only at hsent
  rcases hpublic : s₁.dhPublicKey with _ | dhPublicKey
  · rw [hpublic] at hsent
    cases hsent
  rw [hpublic] at hsent
  dsimp only at hsent
  rw [apply_bind, apply_get] at hsent
  cases hsent
  exact ⟨dhPublicKey, by unfold head; rw [hpublic], rfl, rfl⟩

theorem head_serialize (session : DoubleRatchetSession) :
    headOf (some (serialize session)) = head session ∨
      headOf (some (serialize session)) = (none, session.seqSend) := by
  unfold headOf head serialize deserialize
  dsimp only [Option.map_some, Option.getD_some]
  by_cases hempty : session.dhPublicKey = some []
  · rw [hempty]
    exact .inr rfl
  · rw [readHex_map hempty]
    exact .inl rfl

theorem headOf_serialize (h : session.dhPublicKey ≠ some []) :
    headOf (some (serialize session)) = head session := by
  unfold headOf head serialize deserialize
  dsimp only [Option.map_some, Option.getD_some]
  rw [readHex_map h]

/-- The session with a contact is the stored one, or begins under its first key. -/
theorem head_sessionWith {B : Browser} {onion : String} {identity : KeyPair} {supply : Supply}
    {missing : String} {c : Client}
    (h : sessionWith W B onion identity supply missing c = .ok session) :
    head session = headOf (c.sessions.get? onion) ∨
      c.sessions.get? onion = none ∧ head session = (some supply.init.publicKey.1, 0) := by
  unfold sessionWith at h
  rcases hstored : c.sessions.get? onion with _ | stored
  · rw [hstored] at h
    dsimp only at h
    split at h
    · obtain ⟨sharedSecret, -, h⟩ := except_bind_eq_ok_iff.mp h
      obtain ⟨peerPub, -, h⟩ := except_bind_eq_ok_iff.mp h
      split_ifs at h
      · unfold initAlice at h
        obtain ⟨dhOut, -, h⟩ := except_bind_eq_ok_iff.mp h
        obtain ⟨keys, -, h⟩ := except_bind_eq_ok_iff.mp h
        cases h
        exact .inr ⟨rfl, rfl⟩
      · cases h
        exact .inl rfl
    · cases h
  · rw [hstored] at h
    cases h
    exact .inl rfl

end

/-! ## What calls do to the sessions -/

/-- Saves of sessions that were loaded from the store as it stands, of which at most `n` are of a
message that was sent; the keys are those that new sessions and steps of the ratchet may take. -/
inductive Advances : List (Bytes 32) → ℕ → Keystore → Keystore → Prop
  | refl (kept : Keystore) : Advances [] 0 kept kept
  | unused {keys n kept kept'} (key : Bytes 32) (h : Advances keys n kept kept') :
      Advances (key :: keys) n kept kept'
  | unsent {keys n kept kept'} (h : Advances keys n kept kept') : Advances keys (n + 1) kept kept'
  | keep {keys n kept kept' session} (onion : String) (key? : Option (List UInt8))
      (hhead : head session = headOf (kept.sessions.get? onion))
      (h : Advances keys n
        (persist onion session (kept.sessions.get? onion) (key?.map .opened) kept) kept') :
      Advances keys n kept kept'
  | renew {keys n kept kept' session} {key : Bytes 32} (onion : String) (key? : Option (List UInt8))
      (hhead : head session = (some key.1, 0))
      (h : Advances keys n
        (persist onion session (kept.sessions.get? onion) (key?.map .opened) kept) kept') :
      Advances (key :: keys) n kept kept'
  | send {keys n kept kept' onion session} {dhPublicKey : List UInt8} {seq : ℕ}
      (messageKey : List UInt8) (hstored : headOf (kept.sessions.get? onion) = (some dhPublicKey, seq))
      (hhead : head session = (some dhPublicKey, round64 (seq + 1)))
      (h : Advances keys n (persist onion session (kept.sessions.get? onion)
        (some (.sent messageKey (b64encode dhPublicKey) seq)) kept) kept') :
      Advances keys (n + 1) kept kept'

theorem Advances.trans {keys keys' : List (Bytes 32)} {n n' : ℕ} {a b c : Keystore}
    (h : Advances keys n a b) (h' : Advances keys' n' b c) :
    Advances (keys ++ keys') (n + n') a c := by
  induction h with
  | refl => rwa [List.nil_append, Nat.zero_add]
  | unused key _ ih => exact .unused key (ih h')
  | unsent _ ih =>
    rw [Nat.succ_add]
    exact .unsent (ih h')
  | keep onion key? hhead _ ih => exact .keep onion key? hhead (ih h')
  | renew onion key? hhead _ ih => exact .renew onion key? hhead (ih h')
  | send messageKey hstored hhead _ ih =>
    rw [Nat.succ_add]
    exact .send messageKey hstored hhead (ih h')

/-- The keys that a call has generated for itself. -/
def Request.generated : Request → List (Bytes 32)
  | .send _ _ _ supply _ => [supply.init.publicKey]
  | .receive _ _ supply _ => [supply.init.publicKey, supply.ratchet.publicKey]
  | .load _ history =>
    (history.getD []).flatMap fun m => [m.2.2.init.publicKey, m.2.2.ratchet.publicKey]

section

variable {W : Platform} {B : Browser} {env : Client} {onion : String} {supply : Supply}
  {kept : Keystore}

theorem advances_encryptScript (W : Platform) (plaintext : String) (supply : Supply)
    {session : DoubleRatchetSession} (hhead : head session = headOf (kept.sessions.get? onion)) :
    Advances [] 1 kept
      ((encryptScript W onion plaintext supply session (kept.sessions.get? onion)).run kept) := by
  unfold encryptScript
  rcases hencrypt : encrypt W plaintext supply.random supply.nonce session with
    ⟨enc, session'⟩ | ⟨e, session'⟩
  · obtain ⟨dhPublicKey, hbefore, hpublic, hafter⟩ := head_encrypt hencrypt
    dsimp only
    rw [hpublic]
    exact .send _ (hhead.symm.trans hbefore) hafter (.refl _)
  · exact .unsent (.refl _)

theorem advances_sendScript (plaintext : String) :
    Advances [supply.init.publicKey] 1 kept
      ((sendScript W B env onion plaintext supply).run kept) := by
  unfold sendScript
  rcases env.identity with _ | identity
  · exact .unused _ (.unsent (.refl _))
  dsimp only [Script.run, id]
  rcases hsession : sessionWith W B onion identity supply
    "E2EE pairing session not negotiated with this contact." (reading env kept) with e | session
  · exact .unused _ (.unsent (.refl _))
  have hhead := head_sessionWith hsession
  rw [show (reading env kept).sessions = kept.sessions from rfl] at hhead
  dsimp only
  rcases hstored : kept.sessions.get? onion with _ | stored
  · rw [hstored] at hhead
    -- the new session is stored as it is
    have hnew : ∀ used, (persist onion session none used kept).sessions.get? onion =
        some (serialize session) := by
      intro used
      unfold persist
      rw [Dict.get?_insert, if_pos rfl]
    have hsent : session.dhPublicKey ≠ some [] → Advances [] 1 (persist onion session none none kept)
        ((encryptScript W onion plaintext supply session (some (serialize session))).run
          (persist onion session none none kept)) := by
      intro hnonempty
      rw [← hnew none]
      refine advances_encryptScript W plaintext supply ?_
      rw [hnew none, headOf_serialize hnonempty]
    rcases hhead with hhead | ⟨-, hhead⟩
    · have hnone : session.dhPublicKey = none := congrArg Prod.fst hhead
      refine .unused _ (.keep onion none (show head session = _ from ?_) ?_)
      · rw [hstored]
        exact hhead
      · rw [hstored]
        exact hsent (by rw [hnone]; exact nofun)
    · have hsome : session.dhPublicKey = some supply.init.publicKey.1 := congrArg Prod.fst hhead
      refine .renew onion none hhead ?_
      rw [hstored]
      refine hsent ?_
      rw [hsome]
      exact map_val_ne (some supply.init.publicKey)
  · rw [hstored] at hhead
    rcases hhead with hhead | ⟨hnone, -⟩
    · rw [← hstored] at hhead
      have hsent := advances_encryptScript W plaintext supply hhead
      rw [hstored] at hsent
      exact .unused _ hsent
    · cases hnone

/-- What opens a message works on the stored session. -/
theorem openPeer_eq_ok {identity : KeyPair} {msg : UiMessage} {envelope : Envelope} {c : Client}
    {plaintext : String} {session : DoubleRatchetSession} {used : Used}
    (h : openPeer W B onion identity supply msg envelope c = .ok (plaintext, session, used)) :
    (∃ key, used = .opened key) ∧ (head session = headOf (c.sessions.get? onion) ∨
      head session = (some supply.init.publicKey.1, 0) ∨
      head session = (some supply.ratchet.publicKey.1, 0)) := by
  unfold openPeer at h
  obtain ⟨loaded, hloaded, h⟩ := except_bind_eq_ok_iff.mp h
  obtain ⟨peerDhPub, -, h⟩ := except_bind_eq_ok_iff.mp h
  obtain ⟨iv, -, h⟩ := except_bind_eq_ok_iff.mp h
  obtain ⟨ciphertext, -, h⟩ := except_bind_eq_ok_iff.mp h
  rcases hdecrypt : decrypt W peerDhPub iv ciphertext envelope.seq envelope.prevChainLen
    supply.ratchet loaded with ⟨plaintext', session'⟩ | ⟨e, session'⟩
  · rw [hdecrypt] at h
    cases h
    refine ⟨⟨_, rfl⟩, ?_⟩
    rcases head_decrypt hdecrypt with hsame | hrenewed
    · rw [hsame]
      rcases head_sessionWith hloaded with hstored | ⟨-, hnew⟩
      · exact .inl hstored
      · exact .inr (.inl hnew)
    · exact .inr (.inr hrenewed)
  · rw [hdecrypt] at h
    cases h

theorem advances_decryptScript (resolves : Bool) (msg : UiMessage) {goOn : Accesses}
    {keys : List (Bytes 32)} {n : ℕ} (hgoOn : ∀ kept', Advances keys n kept' (goOn.run kept')) :
    Advances (supply.init.publicKey :: supply.ratchet.publicKey :: keys) n kept
      ((decryptScript W B env onion resolves supply msg goOn).run kept) := by
  have hskip : ∀ kept, Advances (supply.init.publicKey :: supply.ratchet.publicKey :: keys) n kept
      (goOn.run kept) := fun kept => .unused _ (.unused _ (hgoOn kept))
  unfold decryptScript
  rcases B.parseEnvelope msg.ciphertextB64 with _ | envelope
  · exact hskip kept
  rcases env.identity with _ | identity
  · exact hskip kept
  dsimp only
  split_ifs
  · exact hskip kept
  dsimp only [Script.run, id]
  rcases hopen : openPeer W B onion identity supply
    (resolveSealed W B onion identity resolves msg).1 envelope (reading env kept) with
    e | ⟨plaintext, session, used⟩
  · exact hskip kept
  · obtain ⟨⟨key, rfl⟩, hhead⟩ := openPeer_eq_ok hopen
    dsimp only [Script.run]
    rcases hhead with hhead | hhead | hhead
    · exact .unused _ (.unused _ (.keep onion (some key) hhead (hgoOn _)))
    · exact .renew onion (some key) hhead (.unused _ (hgoOn _))
    · exact .unused _ (.renew onion (some key) hhead (hgoOn _))

theorem advances_loadScript (page : List (UiMessage × Bool × Supply)) :
    Advances (page.flatMap fun m => [m.2.2.init.publicKey, m.2.2.ratchet.publicKey]) 0 kept
      ((loadScript W B env onion (some page)).run kept) := by
  induction page generalizing kept with
  | nil => exact .refl _
  | cons m page ih => exact advances_decryptScript m.2.1 m.1 fun _ => ih

/-- With nothing in between, a call sends one message at most. -/
theorem Request.advances (call : Request) :
    Advances call.generated 1 kept ((call.script W B env).run kept) := by
  cases call with
  | send onion plaintext myOnion supply response => exact advances_sendScript plaintext
  | receive onion resolves supply msg =>
    refine .unsent ?_
    unfold Request.script receiveScript
    dsimp only
    split
    · exact .unused _ (.unused _ (.refl _))
    · exact advances_decryptScript _ _ fun _ => .refl _
  | load onion history =>
    refine .unsent ?_
    rcases history with _ | page
    · exact .refl _
    · exact advances_loadScript page

theorem advances_serially (calls : List Request) :
    Advances (calls.flatMap Request.generated) calls.length kept
      (serially (calls.map (Request.script W B env)) kept) := by
  induction calls generalizing kept with
  | nil => exact .refl _
  | cons call calls ih =>
    rw [List.flatMap_cons, List.length_cons, Nat.add_comm]
    exact call.advances.trans ih

end

/-! ## Places in the ratchet -/

/-- A message that was sent in the conversation: its key, and its place in the ratchet. -/
def Save.sent? (onion : String) (save : Save) : Option (List UInt8 × List Char × ℕ) :=
  match save.used with
  | some (.sent messageKey dhPubB64 seq) =>
    if save.onion = onion then some (messageKey, dhPubB64, seq) else none
  | _ => none

def sends (onion : String) (kept : Keystore) : List (List UInt8 × List Char × ℕ) :=
  kept.saves.filterMap (Save.sent? onion)

/-- The messages of a conversation have places of their own, none under a key yet to be generated;
the current session sends under another key than these, and where it has sent it counts on. Another
`n` messages do not take its counter beyond what a `Number` can hold. -/
structure Placed (o : String) (keys : List (Bytes 32)) (n : ℕ) (kept : Keystore) : Prop where
  nodup    : ((sends o kept).map (·.2)).Nodup
  ahead    : ∀ dhPublicKey seq, headOf (kept.sessions.get? o) = (some dhPublicKey, seq) →
    ∀ x ∈ sends o kept, x.2.1 = b64encode dhPublicKey → x.2.2 < seq
  other    : ∀ dhPublicKey seq, headOf (kept.sessions.get? o) = (some dhPublicKey, seq) →
    ∀ key ∈ keys, key.1 ≠ dhPublicKey
  unknown  : ∀ x ∈ sends o kept, ∀ key ∈ keys, x.2.1 ≠ b64encode key.1
  distinct : keys.Nodup
  bound    : (headOf (kept.sessions.get? o)).2 + n ≤ 2 ^ 53

section

variable {o onion : String} {keys : List (Bytes 32)} {key : Bytes 32} {n : ℕ}
  {kept kept' : Keystore} {session : DoubleRatchetSession} {loaded : Option SessionJson}

theorem sends_persist_opened (o onion : String) (session : DoubleRatchetSession)
    (loaded : Option SessionJson) (key? : Option (List UInt8)) (kept : Keystore) :
    sends o (persist onion session loaded (key?.map .opened) kept) = sends o kept := by
  unfold sends persist
  rw [List.filterMap_append]
  rcases key? with _ | key
  · exact List.append_nil _
  · exact List.append_nil _

theorem sends_persist_sent (o onion : String) (session : DoubleRatchetSession)
    (loaded : Option SessionJson) (messageKey : List UInt8) (dhPubB64 : List Char) (seq : ℕ)
    (kept : Keystore) :
    sends o (persist onion session loaded (some (.sent messageKey dhPubB64 seq)) kept) =
      sends o kept ++ if onion = o then [(messageKey, dhPubB64, seq)] else [] := by
  unfold sends persist
  rw [List.filterMap_append]
  refine congrArg (sends o kept ++ ·) ?_
  split_ifs with ho
  · rw [List.filterMap_cons_some (show Save.sent? o ⟨onion, loaded, kept.sessions.get? onion,
      some (.sent messageKey dhPubB64 seq)⟩ = some (messageKey, dhPubB64, seq) from if_pos ho)]
    rfl
  · rw [List.filterMap_cons_none (show Save.sent? o ⟨onion, loaded, kept.sessions.get? onion,
      some (.sent messageKey dhPubB64 seq)⟩ = none from if_neg ho)]
    rfl

theorem get?_persist (used : Option Used) :
    (persist onion session loaded used kept).sessions.get? o =
      if o = onion then some (serialize session) else kept.sessions.get? o := by
  unfold persist
  rw [Dict.get?_insert]

theorem Placed.unused (h : Placed o (key :: keys) n kept) : Placed o keys n kept where
  nodup := h.nodup
  ahead := h.ahead
  other dhPublicKey seq hhead key hkey :=
    h.other dhPublicKey seq hhead key (List.mem_cons_of_mem _ hkey)
  unknown x hx key hkey := h.unknown x hx key (List.mem_cons_of_mem _ hkey)
  distinct := h.distinct.of_cons
  bound := h.bound

theorem Placed.unsent (h : Placed o keys (n + 1) kept) : Placed o keys n kept where
  nodup := h.nodup
  ahead := h.ahead
  other := h.other
  unknown := h.unknown
  distinct := h.distinct
  bound := (Nat.le_succ _).trans h.bound

/-- A session that sends from the same place. -/
theorem Placed.keep (h : Placed o keys n kept) (key? : Option (List UInt8))
    (hhead : head session = headOf (kept.sessions.get? onion)) :
    Placed o keys n (persist onion session loaded (key?.map .opened) kept) := by
  have hsends := sends_persist_opened o onion session loaded key? kept
  -- a session that cannot be read back has no place, so it is no new one
  have hstored : ∀ dhPublicKey seq, headOf ((persist onion session loaded (key?.map .opened)
      kept).sessions.get? o) = (some dhPublicKey, seq) →
        headOf (kept.sessions.get? o) = (some dhPublicKey, seq) := by
    intro dhPublicKey seq hnew
    rw [get?_persist] at hnew
    split_ifs at hnew with ho
    · subst ho
      rcases head_serialize session with hsame | hnone
      · rw [← hhead, ← hsame, hnew]
      · rw [hnone] at hnew
        cases hnew
    · exact hnew
  refine ⟨?_, ?_, fun dhPublicKey seq hnew => h.other _ _ (hstored _ _ hnew), ?_, h.distinct, ?_⟩
  · rw [hsends]
    exact h.nodup
  · intro dhPublicKey seq hnew
    rw [hsends]
    exact h.ahead _ _ (hstored _ _ hnew)
  · rw [hsends]
    exact h.unknown
  · rw [get?_persist]
    split_ifs with ho
    · subst ho
      have hbound := h.bound
      rw [← hhead] at hbound
      rcases head_serialize session with hsame | hnone
      · rw [hsame]
        exact hbound
      · rw [hnone]
        exact hbound
    · exact h.bound

/-- A session that begins to send under a new key. -/
theorem Placed.renew (h : Placed o (key :: keys) n kept) (key? : Option (List UInt8))
    (hhead : head session = (some key.1, 0)) :
    Placed o keys n (persist onion session loaded (key?.map .opened) kept) := by
  have hsends := sends_persist_opened o onion session loaded key? kept
  -- the new key is written as it is read back
  have hnew : headOf (some (serialize session)) = (some key.1, 0) := by
    have hpublic : session.dhPublicKey = some key.1 := congrArg Prod.fst hhead
    rw [headOf_serialize (by rw [hpublic]; exact map_val_ne (some key)), hhead]
  -- it is none of the keys that are generated later
  have hkeys : key ∉ keys := (List.nodup_cons.mp h.distinct).1
  refine ⟨?_, fun dhPublicKey seq hstored => ?_, fun dhPublicKey seq hstored => ?_, ?_,
    h.distinct.of_cons, ?_⟩
  · rw [hsends]
    exact h.nodup
  · rw [hsends]
    rw [get?_persist] at hstored
    split_ifs at hstored with ho
    · rw [hnew] at hstored
      cases hstored
      exact fun x hx hsame => absurd hsame (h.unknown x hx key List.mem_cons_self)
    · exact h.ahead _ _ hstored
  · rw [get?_persist] at hstored
    split_ifs at hstored with ho
    · rw [hnew] at hstored
      cases hstored
      rintro key' hkey' heq
      exact hkeys (Subtype.ext heq ▸ hkey')
    · exact h.unused.other _ _ hstored
  · rw [hsends]
    exact h.unused.unknown
  · rw [get?_persist]
    split_ifs with ho
    · rw [hnew]
      exact (Nat.zero_add n).le.trans ((Nat.le_add_left _ _).trans h.bound)
    · exact h.bound

/-- A message takes the next place. -/
theorem Placed.send (h : Placed o keys (n + 1) kept) {dhPublicKey : List UInt8} {seq : ℕ}
    (messageKey : List UInt8) (hstored : headOf (kept.sessions.get? onion) = (some dhPublicKey, seq))
    (hhead : head session = (some dhPublicKey, round64 (seq + 1))) :
    Placed o keys n (persist onion session loaded
      (some (.sent messageKey (b64encode dhPublicKey) seq)) kept) := by
  have hsends := sends_persist_sent o onion session loaded messageKey (b64encode dhPublicKey) seq kept
  by_cases ho : onion = o
  · subst ho
    rw [if_pos rfl] at hsends
    have hbound := h.bound
    rw [hstored] at hbound
    dsimp only at hbound
    -- the bound on the calls keeps the count exact, so the next place is one more
    rw [round64_of_le (by omega)] at hhead
    have hnew : ∀ dhPublicKey' seq', headOf ((persist onion session loaded (some (.sent messageKey
        (b64encode dhPublicKey) seq)) kept).sessions.get? onion) = (some dhPublicKey', seq') →
          dhPublicKey' = dhPublicKey ∧ seq' = seq + 1 := by
      intro dhPublicKey' seq' hnew
      rw [get?_persist, if_pos rfl] at hnew
      rcases head_serialize session with hsame | hnone
      · rw [hsame, hhead] at hnew
        cases hnew
        exact ⟨rfl, rfl⟩
      · rw [hnone] at hnew
        cases hnew
    refine ⟨?_, fun dhPublicKey' seq' hhead' => ?_, fun dhPublicKey' seq' hhead' => ?_, ?_, h.distinct,
      ?_⟩
    -- the new send has a place above all of its key
    · rw [hsends, List.map_append, List.nodup_append]
      refine ⟨h.nodup, List.nodup_singleton _, ?_⟩
      rintro x hx y hy rfl
      obtain ⟨⟨k, d, m⟩, hmem, rfl⟩ := List.mem_map.mp hx
      obtain ⟨rfl, rfl⟩ := Prod.mk.inj (List.mem_singleton.mp hy)
      exact Nat.lt_irrefl _ (h.ahead _ _ hstored _ hmem rfl)
    · obtain ⟨rfl, rfl⟩ := hnew _ _ hhead'
      intro x hx hsame
      rw [hsends] at hx
      rcases List.mem_append.mp hx with hx | hx
      · exact Nat.lt_succ_of_lt (h.ahead _ _ hstored x hx hsame)
      · rw [List.mem_singleton.mp hx]
        exact Nat.lt_succ_self _
    · obtain ⟨rfl, -⟩ := hnew _ _ hhead'
      exact h.other _ _ hstored
    · intro x hx key hkey
      rw [hsends] at hx
      rcases List.mem_append.mp hx with hx | hx
      · exact h.unknown x hx key hkey
      · rw [List.mem_singleton.mp hx]
        exact fun heq => h.other _ _ hstored key hkey (b64encode_injective heq).symm
    -- a call is used up for the number
    · rw [get?_persist, if_pos rfl]
      have hseq : session.seqSend = seq + 1 := congrArg Prod.snd hhead
      have hsnd : (headOf (some (serialize session))).2 = session.seqSend := rfl
      rw [hsnd, hseq]
      omega
  -- a send to another contact leaves the keystore of this one
  · rw [if_neg ho, List.append_nil] at hsends
    have hkept : ∀ used, (persist onion session loaded used kept).sessions.get? o =
        kept.sessions.get? o := by
      intro used
      rw [get?_persist, if_neg (Ne.symm ho)]
    refine ⟨?_, ?_, ?_, ?_, h.distinct, ?_⟩
    · rw [hsends]
      exact h.nodup
    · rw [hkept, hsends]
      exact h.ahead
    · rw [hkept]
      exact h.other
    · rw [hsends]
      exact h.unknown
    · rw [hkept]
      exact h.unsent.bound

theorem Placed.advances (hadvances : Advances keys n kept kept') (h : Placed o keys n kept) :
    Placed o [] 0 kept' := by
  induction hadvances with
  | refl => exact h
  | unused _ _ ih => exact ih h.unused
  | unsent _ ih => exact ih h.unsent
  | keep _ key? hhead _ ih => exact ih (h.keep key? hhead)
  | renew _ key? hhead _ ih => exact ih (h.renew key? hhead)
  | send messageKey hstored hhead _ ih => exact ih (h.send messageKey hstored hhead)

end

/-! ## Calls in some order -/

section

variable (W : Platform) (B : Browser) (c : Client)

/-- The calls have been made, and none has taken a step. -/
def made (calls : List Request) : Pool Keystore Lists :=
  .start (calls.map (Request.task W B c)) ⟨c.sessions, []⟩ c.messageMap

/-- The steps of the calls, one call after another. -/
def inOrder (order : List Request) : Keystore × Lists :=
  order.foldl (fun s call => (call.task W B c).run s) (⟨c.sessions, []⟩, c.messageMap)

/-- No key is generated twice, or is one that a stored session sends under. -/
structure NewKeys (calls : List Request) : Prop where
  distinct : (calls.flatMap Request.generated).Nodup
  unused   : ∀ onion stored, c.sessions.get? onion = some stored →
    ∀ key ∈ calls.flatMap Request.generated, (deserialize stored).dhPublicKey ≠ some key.1

/-- The counters stay where a `Number` counts. -/
def Countable (calls : List Request) : Prop :=
  ∀ onion, (headOf (c.sessions.get? onion)).2 + calls.length ≤ 2 ^ 53

/-- When the calls are made one after another, different places in the ratchet have different
keys. -/
def KeysApart (calls : List Request) : Prop :=
  ∀ order : List Request, order.Perm calls → ∀ onion, ∀ x ∈ sends onion (inOrder W B c order).1,
    ∀ y ∈ sends onion (inOrder W B c order).1, x.2 ≠ y.2 → x.1 ≠ y.1

/-- What is to hold of calls that overlap: once all have returned, the sessions, and all saves with
the keys used, are those of the calls in some order; no save takes back what another call has saved
since the session was loaded; and no two messages have the same place, or the same key. -/
structure Serialisable (calls : List Request) (s : Pool Keystore Lists) : Prop where
  ordered  : s.Finished → ∃ order : List Request, order.Perm calls ∧
    s.item = (inOrder W B c order).1 ∧
    s.item.sessions = (after (fun call : Request => call.event.run W B) order c).sessions
  upToDate : ∀ save ∈ s.item.saves, save.replaced = save.loaded
  placed   : NewKeys c calls → Countable c calls →
    ∀ onion, ((sends onion s.item).map (·.2)).Nodup
  keyed    : NewKeys c calls → Countable c calls → KeysApart W B c calls →
    ∀ onion, ((sends onion s.item).map (·.1)).Nodup

end

section

variable {W : Platform} {B : Browser} {c env : Client}

theorem clientOf_inOrder (order : List Request) (s : Keystore × Lists) :
    clientOf env (order.foldl (fun s call => (call.task W B env).run s) s) =
      after (fun call : Request => call.event.run W B) order (clientOf env s) := by
  induction order generalizing s with
  | nil => rfl
  | cons call order ih => rw [List.foldl_cons, ih, call.run_task, after_cons]

theorem inOrder_eq (order : List Request) :
    (inOrder W B c order).1 = serially (order.map (Request.script W B c)) ⟨c.sessions, []⟩ :=
  item_foldl_run (fun call _ => call.task_follows) _

/-- What a call saves comes after what has been saved before. -/
def Grows (kept kept' : Keystore) : Prop := kept.saves <+: kept'.saves

theorem grows_persist (onion : String) (session : DoubleRatchetSession)
    (loaded : Option SessionJson) (used : Option Used) (kept : Keystore) :
    Grows kept (persist onion session loaded used kept) := List.prefix_append _ _

theorem encryptScript_grows {onion plaintext : String} {supply : Supply}
    {session : DoubleRatchetSession} {loaded : Option SessionJson} :
    (encryptScript W onion plaintext supply session loaded).Each Grows := by
  unfold encryptScript
  split
  · exact ⟨grows_persist _ _ _ _, fun _ => trivial⟩
  · trivial

theorem decryptScript_grows {onion : String} {resolves : Bool} {supply : Supply} {msg : UiMessage}
    {goOn : Accesses} (h : goOn.Each Grows) :
    (decryptScript W B env onion resolves supply msg goOn).Each Grows := by
  unfold decryptScript
  split
  · dsimp only
    split_ifs
    · exact h
    · refine ⟨fun _ => List.prefix_rfl, fun kept => ?_⟩
      dsimp only
      split
      · exact ⟨grows_persist _ _ _ _, fun _ => h⟩
      · exact h
  · exact h

theorem Request.script_grows (call : Request) : (call.script W B env).Each Grows := by
  cases call with
  | send onion plaintext myOnion supply response =>
    unfold Request.script sendScript
    dsimp only
    split
    · trivial
    · refine ⟨fun _ => List.prefix_rfl, fun kept => ?_⟩
      dsimp only
      split
      · trivial
      · split
        · exact encryptScript_grows
        · exact ⟨grows_persist _ _ _ _, fun _ => encryptScript_grows⟩
  | receive onion resolves supply msg =>
    unfold Request.script receiveScript
    dsimp only
    split
    · trivial
    · exact decryptScript_grows trivial
  | load onion history =>
    unfold Request.script loadScript
    dsimp only
    induction history.getD [] with
    | nil => trivial
    | cons m page ih => exact decryptScript_grows ih

theorem Advances.upToDate {keys : List (Bytes 32)} {n : ℕ} {kept kept' : Keystore}
    (h : Advances keys n kept kept') (hkept : ∀ save ∈ kept.saves, save.replaced = save.loaded) :
    ∀ save ∈ kept'.saves, save.replaced = save.loaded := by
  have hpersist : ∀ {kept : Keystore} (onion session used),
      (∀ save ∈ kept.saves, save.replaced = save.loaded) →
      ∀ save ∈ (persist onion session (kept.sessions.get? onion) used kept).saves,
        save.replaced = save.loaded := by
    intro kept onion session used hkept save hsave
    rcases List.mem_append.mp hsave with hsave | hsave
    · exact hkept save hsave
    · rw [List.mem_singleton.mp hsave]
  induction h with
  | refl => exact hkept
  | unused _ _ ih => exact ih hkept
  | unsent _ ih => exact ih hkept
  | keep onion key? hhead _ ih => exact ih (hpersist _ _ _ hkept)
  | renew onion key? hhead _ ih => exact ih (hpersist _ _ _ hkept)
  | send messageKey hstored hhead _ ih => exact ih (hpersist _ _ _ hkept)

theorem NewKeys.of_perm {calls order : List Request} (h : NewKeys c calls) (hperm : order.Perm calls) :
    NewKeys c order where
  distinct := (hperm.flatMap_right _).nodup_iff.mpr h.distinct
  unused onion stored hstored key hkey :=
    h.unused onion stored hstored key ((hperm.flatMap_right _).subset hkey)

theorem Countable.of_perm {calls order : List Request} (h : Countable c calls)
    (hperm : order.Perm calls) : Countable c order := by
  intro onion
  rw [hperm.length_eq]
  exact h onion

/-- Before any call has saved a session, no message has a place. -/
theorem placed_made {calls : List Request} (hnew : NewKeys c calls) (hcount : Countable c calls)
    (onion : String) :
    Placed onion (calls.flatMap Request.generated) calls.length ⟨c.sessions, []⟩ where
  nodup := List.nodup_nil
  ahead _ _ _ x hx := absurd hx List.not_mem_nil
  other dhPublicKey seq hhead key hkey := by
    rintro rfl
    rcases hstored : c.sessions.get? onion with _ | stored
    · rw [hstored] at hhead
      cases hhead
    · rw [hstored] at hhead
      exact hnew.unused onion stored hstored key hkey (congrArg Prod.fst hhead)
  unknown x hx := absurd hx List.not_mem_nil
  distinct := hnew.distinct
  bound := hcount onion

/-- In every run in which a call accesses the sessions only while no other call is between its first
access and its last, the calls leave the sessions as some order of them does. -/
theorem serialisable_of_apart (W : Platform) (B : Browser) (c : Client) (calls : List Request)
    {s : Pool Keystore Lists} (hrun : Interleave.Run step Apart (made W B c calls) s) :
    Serialisable W B c calls s := by
  -- the order is that of the first accesses, since no two calls are inside of their
  -- accesses at once
  obtain ⟨order, left, hperm, hleft, hrest, hdone⟩ :=
    serially_of_apart (fun call _ => call.task_follows) hrun
  rw [← inOrder_eq] at hleft
  -- what the calls have done by now is a beginning of what they do in that order
  have hgrows : Grows s.item (inOrder W B c order).1 := by
    rw [← hleft]
    refine serially_each (R := Grows) (fun _ => List.prefix_rfl)
      (fun _ _ _ hab hbc => List.IsPrefix.trans hab hbc) ?_ _
    intro script' hscript'
    obtain ⟨call, -, hrestOf⟩ := hrest script' hscript'
    exact hrestOf.each call.script_grows
  have hadvances : Advances (order.flatMap Request.generated) order.length ⟨c.sessions, []⟩
      (inOrder W B c order).1 := by
    rw [inOrder_eq]
    exact advances_serially order
  have hsends : ∀ onion, (sends onion s.item).Sublist (sends onion (inOrder W B c order).1) :=
    fun onion => hgrows.sublist.filterMap _
  -- in an order of whole calls every send takes a place of its own
  have hplaced : NewKeys c calls → Countable c calls → ∀ onion,
      ((sends onion (inOrder W B c order).1).map (·.2)).Nodup := by
    intro hnew hcount onion
    exact (Placed.advances hadvances
      (placed_made (hnew.of_perm hperm) (hcount.of_perm hperm) onion)).nodup
  refine ⟨fun hfinished => ?_, ?_, ?_, ?_⟩
  · have hitem : s.item = (inOrder W B c order).1 := by
      rw [← hleft, serially_done (hdone hfinished)]
    refine ⟨order, hperm, hitem, ?_⟩
    rw [hitem]
    exact congrArg Client.sessions (clientOf_inOrder order (⟨c.sessions, []⟩, c.messageMap))
  · intro save hsave
    exact hadvances.upToDate (fun save hsave => absurd hsave List.not_mem_nil) save
      (hgrows.subset hsave)
  · intro hnew hcount onion
    exact (hplaced hnew hcount onion).sublist ((hsends onion).map _)
  -- two sends with one key would be at one place, which is told apart
  · intro hnew hcount hkeys onion
    refine List.Nodup.sublist ((hsends onion).map _) ?_
    have hnodup := hplaced hnew hcount onion
    rw [List.Nodup, List.pairwise_map] at hnodup ⊢
    exact hnodup.imp_of_mem fun hx hy => hkeys order hperm onion _ hx _ hy

end

/-! ## Two calls of `sendMessage` -/

section

variable {W : Platform} {B : Browser} {c : Client} {onion : String} {identity : KeyPair}

/-- `sendMessage`, where the stored session can send. -/
theorem sendTask_loaded (onion : String) (hidentity : c.identity = some identity) (plaintext : String)
    (supply : Supply) (response : Option UiMessage) (lists : Lists) :
    ∃ (next : Lists → Steps) (next' : Keystore → Steps),
      sendTask W B c onion plaintext supply response = .other id next ∧
      next lists = .access id next' ∧
      ∀ (kept : Keystore) (seat : Seat) (ck : Bytes 32), seat.root ≠ [] → seat.sending = some ck →
        kept.sessions.get? onion = some (serialize seat.session) →
        next' kept = .access (persist onion (seat.afterSend W ck).session
            (some (serialize seat.session)) (some (.sent (nextKeys W ck).1.1
              (b64encode seat.own.publicKey.1) seat.sent))) fun _ =>
          postTask W B onion plaintext identity supply ((lists.get? onion).getD []) response := by
  unfold sendTask
  rw [hidentity]
  refine ⟨_, _, rfl, rfl, fun kept seat ck hroot hck hstored => ?_⟩
  have hsession : sessionWith W B onion identity supply
      "E2EE pairing session not negotiated with this contact." (reading c kept) =
        .ok seat.session := by
    unfold sessionWith
    rw [show (reading c kept).sessions = kept.sessions from rfl, hstored]
    dsimp only
    rw [deserialize_serialize_session hroot]
  have hkey : sendingKey W seat.session = (nextKeys W ck).1.1 := by
    unfold sendingKey
    rw [show seat.session.sendingChainKey = some ck.1 from congrArg (Option.map Subtype.val) hck,
      Option.map_some, chainStep_nextKeys]
  rw [hsession, hstored]
  dsimp only [encryptTask]
  rw [encrypt_some hck, hkey]
  rfl

/-- Two calls that have both loaded the session before either saves it send under one key, from one
place, and the second save takes back the first. -/
theorem overlapping_sends (hidentity : c.identity = some identity) {seat : Seat} {ck : Bytes 32}
    (hroot : seat.root ≠ []) (hck : seat.sending = some ck)
    (hstored : c.sessions.get? onion = some (serialize seat.session))
    (plaintext plaintext' myOnion : String) (supply supply' : Supply)
    (response response' : Option UiMessage) :
    ∃ s : Pool Keystore Lists, Interleave.Run step (fun _ _ => True) (made W B c
        [.send onion plaintext myOnion supply response,
          .send onion plaintext' myOnion supply' response']) s ∧
      s.threads = [
        ⟨postTask W B onion plaintext identity supply ((c.messageMap.get? onion).getD []) response,
          true⟩,
        ⟨postTask W B onion plaintext' identity supply' ((c.messageMap.get? onion).getD []) response',
          true⟩] ∧
      s.item.saves = [
        ⟨onion, some (serialize seat.session), some (serialize seat.session),
          some (.sent (nextKeys W ck).1.1 (b64encode seat.own.publicKey.1) seat.sent)⟩,
        ⟨onion, some (serialize seat.session), some (serialize (seat.afterSend W ck).session),
          some (.sent (nextKeys W ck).1.1 (b64encode seat.own.publicKey.1) seat.sent)⟩] := by
  -- both calls begin as the list of messages does not matter: each loads it first
  obtain ⟨next₁, load₁, htask₁, hload₁, hsend₁⟩ :=
    sendTask_loaded (W := W) (B := B) onion hidentity plaintext supply response c.messageMap
  obtain ⟨next₂, load₂, htask₂, hload₂, hsend₂⟩ :=
    sendTask_loaded (W := W) (B := B) onion hidentity plaintext' supply' response'
      c.messageMap
  let item₀ : Keystore := ⟨c.sessions, []⟩
  let used : Used := .sent (nextKeys W ck).1.1 (b64encode seat.own.publicKey.1) seat.sent
  let saved : Keystore → Keystore :=
    persist onion (seat.afterSend W ck).session (some (serialize seat.session)) (some used)
  let start : Pool Keystore Lists :=
    ⟨item₀, c.messageMap, [⟨.other id next₁, false⟩, ⟨.other id next₂, false⟩]⟩
  have hmade : made W B c [.send onion plaintext myOnion supply response,
      .send onion plaintext' myOnion supply' response'] = start := by
    show (⟨item₀, c.messageMap, [⟨sendTask W B c onion plaintext supply response, false⟩,
      ⟨sendTask W B c onion plaintext' supply' response', false⟩]⟩ : Pool Keystore Lists) = start
    rw [htask₁, htask₂]
  rw [hmade]
  have hlisted : Interleave.Run step (fun _ _ => True) start
      ⟨item₀, c.messageMap, [⟨next₁ c.messageMap, false⟩, ⟨next₂ c.messageMap, false⟩]⟩ := by
    have hstart : Interleave.Run step (fun _ _ => True) start start := .start
    have hfirst := hstart.next 0 trivial (step_other rfl)
    have hsecond := hfirst.next 1 trivial (step_other rfl)
    exact hsecond
  -- then each loads the session, before either has saved it
  rw [hload₁, hload₂] at hlisted
  have hloaded : Interleave.Run step (fun _ _ => True) start
      ⟨item₀, c.messageMap, [⟨load₁ item₀, true⟩, ⟨load₂ item₀, true⟩]⟩ := by
    have hfirst := hlisted.next 0 trivial (step_access rfl)
    have hsecond := hfirst.next 1 trivial (step_access rfl)
    exact hsecond
  -- both compute with the session they loaded, and save
  rw [hsend₁ item₀ seat ck hroot hck hstored, hsend₂ item₀ seat ck hroot hck hstored] at hloaded
  have hfirst := hloaded.next 0 trivial (step_access rfl)
  have hsecond := hfirst.next 1 trivial (step_access rfl)
  refine ⟨_, hsecond, rfl, ?_⟩
  show (saved (saved item₀)).saves = _
  have hreplaced : (saved item₀).sessions.get? onion =
      some (serialize (seat.afterSend W ck).session) := by
    rw [get?_persist, if_pos rfl]
  have hsaves : (saved (saved item₀)).saves =
      [⟨onion, some (serialize seat.session), c.sessions.get? onion, some used⟩,
        ⟨onion, some (serialize seat.session), (saved item₀).sessions.get? onion, some used⟩] := rfl
  rw [hsaves, hreplaced, hstored]

/-- A call whose request fails has no more to do. -/
theorem postTask_none (plaintext : String) (supply : Supply) (existing : List UiMessage) :
    postTask W B onion plaintext identity supply existing none = .done := by
  unfold postTask
  split_ifs
  · rfl
  · rfl

end

/-- The session of a client that has begun the conversation. -/
def openedSeat : Seat :=
  .opening taggedPlatform [9] (sampleKeys 1).publicKey (sampleKeys 6)

def openedClient : Client :=
  { sampleClient with
    sessions := Dict.empty.insert "peer.onion" (serialize openedSeat.session) }

def twoSends : List Request :=
  [.send "peer.onion" "hi" "me.onion" sampleSupply none,
    .send "peer.onion" "there" "me.onion" sampleSupply none]

theorem openedSeat_root : openedSeat.root ≠ [] := Python.ne_nil_of_length (by decide)
  (nextRoot taggedPlatform [9] (taggedPlatform.dh (sampleKeys 6).privateKey
    (sampleKeys 1).publicKey)).1

theorem stored_openedClient :
    openedClient.sessions.get? "peer.onion" = some (serialize openedSeat.session) := by
  unfold openedClient
  rw [Dict.get?_insert, if_pos rfl]

/-- The second call reads the list before the first one loads the session, and loads the session
after the first one has saved it. -/
theorem twoSends_serialisable : ∃ s : Pool Keystore Lists, s.Finished ∧ s.item.saves.length = 2 ∧
    Serialisable taggedPlatform sampleBrowser openedClient twoSends s := by
  obtain ⟨next₁, load₁, htask₁, hload₁, hsend₁⟩ :=
    sendTask_loaded (W := taggedPlatform) (B := sampleBrowser) (c := openedClient) "peer.onion" rfl
      "hi" sampleSupply none Dict.empty
  obtain ⟨next₂, load₂, htask₂, hload₂, hsend₂⟩ :=
    sendTask_loaded (W := taggedPlatform) (B := sampleBrowser) (c := openedClient) "peer.onion" rfl
      "there" sampleSupply none Dict.empty
  simp only [postTask_none] at hsend₁ hsend₂
  let item₀ : Keystore := ⟨openedClient.sessions, []⟩
  let start : Pool Keystore Lists :=
    ⟨item₀, Dict.empty, [⟨.other id next₁, false⟩, ⟨.other id next₂, false⟩]⟩
  have hmade : made taggedPlatform sampleBrowser openedClient twoSends = start := by
    show (⟨item₀, Dict.empty,
      [⟨sendTask taggedPlatform sampleBrowser openedClient "peer.onion" "hi" sampleSupply none, false⟩,
        ⟨sendTask taggedPlatform sampleBrowser openedClient "peer.onion" "there" sampleSupply none,
          false⟩]⟩ : Pool Keystore Lists) = start
    rw [htask₁, htask₂]
  obtain ⟨ck, hck⟩ : ∃ ck, openedSeat.sending = some ck := ⟨_, rfl⟩
  let item₁ : Keystore :=
    persist "peer.onion" (openedSeat.afterSend taggedPlatform ck).session
      (some (serialize openedSeat.session)) (some (.sent (nextKeys taggedPlatform ck).1.1
        (b64encode openedSeat.own.publicKey.1) openedSeat.sent)) item₀
  have hlisted : Interleave.Run step Apart start
      ⟨item₀, Dict.empty, [⟨next₁ Dict.empty, false⟩, ⟨next₂ Dict.empty, false⟩]⟩ := by
    have hstart : Interleave.Run step Apart start start := .start
    have h₁ := hstart.next 0 (apart_other rfl) (step_other rfl)
    have h₂ := h₁.next 1 (apart_other rfl) (step_other rfl)
    exact h₂
  rw [hload₁, hload₂] at hlisted
  -- the first call loads the session and saves it
  have hfirst : Interleave.Run step Apart start
      ⟨item₀, Dict.empty, [⟨load₁ item₀, true⟩, ⟨.access id load₂, false⟩]⟩ := by
    have h := hlisted.next 0 (apart_left nofun) (step_access rfl)
    exact h
  rw [hsend₁ item₀ openedSeat ck openedSeat_root hck stored_openedClient] at hfirst
  have hsaved : Interleave.Run step Apart start
      ⟨item₁, Dict.empty, [⟨.done, true⟩, ⟨.access id load₂, false⟩]⟩ := by
    have h := hfirst.next 0 (apart_left nofun) (step_access rfl)
    exact h
  -- and so does the second
  have hsecond : Interleave.Run step Apart start
      ⟨item₁, Dict.empty, [⟨.done, true⟩, ⟨load₂ item₁, true⟩]⟩ := by
    have h := hsaved.next 1 (apart_right fun _ => trivial) (step_access rfl)
    exact h
  have hstored : item₁.sessions.get? "peer.onion" =
      some (serialize (openedSeat.afterSend taggedPlatform ck).session) := by
    rw [get?_persist, if_pos rfl]
  rw [hsend₂ item₁ (openedSeat.afterSend taggedPlatform ck) (nextKeys taggedPlatform ck).2
    openedSeat_root rfl hstored] at hsecond
  have hrun := hsecond.next 1 (apart_right fun _ => trivial) (step_access rfl)
  rw [← hmade] at hrun
  refine ⟨_, ?_, ?_, serialisable_of_apart taggedPlatform sampleBrowser openedClient twoSends hrun⟩
  · intro t ht
    rcases List.mem_cons.mp ht with rfl | ht
    · rfl
    · rw [List.mem_singleton.mp ht]
  · rfl

/-- When both load the session before either saves it, both messages are sent under one key. -/
theorem twoSends_unserialised : ∃ s : Pool Keystore Lists,
    Interleave.Run step (fun _ _ => True)
      (made taggedPlatform sampleBrowser openedClient twoSends) s ∧ s.Finished ∧
    (∃ x, sends "peer.onion" s.item = [x, x]) ∧
    ¬ Serialisable taggedPlatform sampleBrowser openedClient twoSends s := by
  obtain ⟨ck, hck⟩ : ∃ ck, openedSeat.sending = some ck := ⟨_, rfl⟩
  obtain ⟨s, hrun, hthreads, hsaves⟩ := overlapping_sends (W := taggedPlatform) (B := sampleBrowser)
    (c := openedClient) rfl openedSeat_root hck stored_openedClient "hi" "there" "me.onion"
    sampleSupply sampleSupply none none
  refine ⟨s, hrun, ?_, ?_, ?_⟩
  · intro t ht
    rw [hthreads, postTask_none, postTask_none] at ht
    rcases List.mem_cons.mp ht with rfl | ht
    · rfl
    · rw [List.mem_singleton.mp ht]
  · refine ⟨((nextKeys taggedPlatform ck).1.1, b64encode openedSeat.own.publicKey.1,
      openedSeat.sent), ?_⟩
    unfold sends
    rw [hsaves]
    rfl
  · intro h
    have hstale := h.upToDate _ (by rw [hsaves]; exact List.mem_cons_of_mem _ List.mem_cons_self)
    have hseq := congrArg (Option.map SessionJson.seqSend) hstale
    revert hseq
    show ¬ some (round64 (0 + 1)) = some 0
    decide

end AnonyMus.Web.Overlap
