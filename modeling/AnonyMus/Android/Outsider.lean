import AnonyMus.Android.ChatFrame
import AnonyMus.Lib.Interleave

/-!
# Android client — payloads from outside

A queue carries what anyone pushes to it. A payload is foreign to a session if
no message in it was encrypted under a key of the session's chains.

* `Foreign`, `Plain` — foreign payloads, and those without a `handshake` or a
  `queue_update`;
* `session_processPayload` — a plain foreign payload leaves the session alone;
* `session_immune` — in every run without handshakes to a client that has a
  session, and no invite makes two sessions;
* `second_handshake` — a second handshake on the same queue replaces the session.
-/

namespace AnonyMus.Android.Chat

open EStateM (Keeps Preserves)
open Interleave

variable {Text Base64 : Type}

/-! ## Foreign payloads -/

/-- Nothing opens but what was encrypted under the same key. -/
def CryptoProvider.Authentic (P : CryptoProvider Text Base64) : Prop :=
  ∀ key iv ciphertext role seqNum sessionId text,
    P.decryptMessage key iv ciphertext role seqNum sessionId = some text →
      ∃ plaintext role seqNum sessionId nonce,
        P.encryptMessage key plaintext role seqNum sessionId nonce = some ⟨iv, ciphertext⟩

variable (P : CryptoProvider Text Base64)

/-- The chain key `n` steps after `chainKey`. -/
def chainKeyAt (chainKey : List UInt8) : ℕ → List UInt8
  | 0 => chainKey
  | n + 1 => (P.deriveChainKeys (chainKeyAt chainKey n)).2

/-- Encrypted under a message key of the chain. -/
def Produced (chainKey : List UInt8) (iv ciphertext : Base64) : Prop :=
  ∃ n plaintext role seqNum sessionId nonce,
    P.encryptMessage (P.deriveChainKeys (chainKeyAt P chainKey n)).1 plaintext role seqNum sessionId
      nonce = some ⟨iv, ciphertext⟩

mutual

/-- No message in the payload was encrypted under a key of one of the session's chains. -/
def Foreign (session : Session) : Payload Base64 → Prop
  | .message iv ciphertext _ => ∀ chainKey, session.sendChainKey = some chainKey ∨
      session.recvChainKey = some chainKey → ¬ Produced P chainKey iv ciphertext
  | .batch events => AllForeign session events
  | _ => True

def AllForeign (session : Session) : List (Payload Base64) → Prop
  | [] => True
  | payload :: events => Foreign session payload ∧ AllForeign session events

end

mutual

/-- Neither a handshake nor a queue update, alone or in a batch. -/
def Plain : Payload Base64 → Prop
  | .handshake _ _ | .queueUpdate _ => False
  | .batch events => AllPlain events
  | _ => True

def AllPlain : List (Payload Base64) → Prop
  | [] => True
  | payload :: events => Plain payload ∧ AllPlain events

end

mutual

/-- The handshakes in a payload. -/
def handshakes : Payload Base64 → ℕ
  | .handshake _ _ => 1
  | .batch events => allHandshakes events
  | _ => 0

def allHandshakes : List (Payload Base64) → ℕ
  | [] => 0
  | payload :: events => handshakes payload + allHandshakes events

end

variable {P}

/-! ## The session -/

/-- A message that does not open is shown as such. -/
theorem core_onMessage (hP : P.Authentic) {s : ChatManager Base64} {iv ciphertext : Base64}
    (hforeign : ∀ chainKey, s.sendChainKey = some chainKey ∨ s.recvChainKey = some chainKey →
      ¬ Produced P chainKey iv ciphertext) :
    (onMessage P iv ciphertext s).state.core = s.core := by
  unfold onMessage
  rw [EStateM.apply_bind, EStateM.apply_get]
  dsimp only
  rcases hrecv : s.recvChainKey with _ | recvChainKey
  · rfl
  · dsimp only
    rcases s.theirRole with _ | theirRole
    · rfl
    · dsimp only
      rcases hopen : P.decryptMessage (P.deriveChainKeys recvChainKey).1 iv ciphertext theirRole
        s.recvSeq s.sessionId with _ | decrypted
      · exact keeps_core_appendNow _ _ _ s
      · -- it would have been encrypted under the next key of the receiving chain
        obtain ⟨plaintext, role, seqNum, sessionId, nonce, hsealed⟩ := hP _ _ _ _ _ _ _ hopen
        exact absurd ⟨0, plaintext, role, seqNum, sessionId, nonce, hsealed⟩
          (hforeign recvChainKey (.inr hrecv))

mutual

theorem core_processPayload (hP : P.Authentic) (queueId : String) {s : ChatManager Base64} :
    (payload : Payload Base64) → Foreign P s.toSession payload → Plain payload →
      (processPayload P queueId payload s).state.core = s.core
  | .message _ _ _, hforeign, _ => core_onMessage hP hforeign
  | .batch events, hforeign, hplain => core_processEvents hP queueId events hforeign hplain
  | .other, _, _ => rfl
  | .broken, _, _ => rfl

theorem core_processEvents (hP : P.Authentic) (queueId : String) {s : ChatManager Base64} :
    (events : List (Payload Base64)) → AllForeign P s.toSession events → AllPlain events →
      (processEvents P queueId events s).state.core = s.core
  | [], _, _ => rfl
  | payload :: events, hforeign, hplain => by
    have hfirst := core_processPayload hP queueId payload hforeign.1 hplain.1
    rw [processEvents]
    rcases EStateM.state_bind (processPayload P queueId payload)
      (fun _ => processEvents P queueId events) s with h | ⟨_, h⟩
    · rw [h, hfirst]
    · have hsession : (processPayload P queueId payload s).state.toSession = s.toSession :=
        congrArg Core.toSession hfirst
      rw [h, core_processEvents hP queueId events (hsession ▸ hforeign.2) hplain.2, hfirst]

end

/-- Plain foreign payloads, one after the other. -/
theorem core_payloads (hP : P.Authentic) {s : ChatManager Base64}
    {payloads : List (String × Payload Base64)}
    (hpayloads : ∀ p ∈ payloads, Foreign P s.toSession p.2 ∧ Plain p.2) :
    (payloads.foldl (fun s p => s.after P (.queuePayload p.1 p.2)) s).core = s.core := by
  induction payloads generalizing s with
  | nil => rfl
  | cons p payloads ih =>
    rw [List.forall_mem_cons] at hpayloads
    have hfirst : (s.after P (.queuePayload p.1 p.2)).core = s.core :=
      core_processPayload hP p.1 p.2 hpayloads.1.1 hpayloads.1.2
    have hsession : (s.after P (.queuePayload p.1 p.2)).toSession = s.toSession :=
      congrArg Core.toSession hfirst
    rw [List.foldl_cons, ih (hsession ▸ hpayloads.2), hfirst]

/-! ## Invites -/

/-- Who is in a session, and under which key. -/
def ChatManager.account (s : ChatManager Base64) :
    Bool × Option KeyPair × Option String × List (String × Option String) :=
  (s.isSessionActive, s.myKeyPair, s.myPublicKeyExported, s.established)

open ChatManager (account core unsent unchained)

/-- Every invite has made one session at most, and one with the current key makes no further one. -/
def OneSession (s : ChatManager Base64) : Prop :=
  s.established.Nodup ∧ (s.isSessionActive = false → s.myKeyPair ≠ none →
    ∀ invite ∈ s.established, invite.2 ≠ s.myPublicKeyExported)

section

variable {α : Type} {x : Handler Base64 α}

theorem oneSession_congr {s s' : ChatManager Base64} (h : s'.account = s.account) :
    OneSession s' ↔ OneSession s := by
  obtain ⟨hactive, hrest⟩ := Prod.mk.inj h
  obtain ⟨hpair, hrest⟩ := Prod.mk.inj hrest
  obtain ⟨hkey, hestablished⟩ := Prod.mk.inj hrest
  unfold OneSession
  rw [hestablished, hactive, hpair, hkey]

theorem preserves_of_account (hx : Keeps account x) : Preserves OneSession x :=
  fun s hs => (oneSession_congr (hx s)).mpr hs

theorem keeps_account_of_unchained (hx : Keeps unchained x) : Keeps account x := by
  intro s
  have h := hx s
  exact congrArg (fun c : Core =>
    (c.isSessionActive, c.myKeyPair, c.myPublicKeyExported, c.established)) h

theorem keeps_account_of_unsent (hx : Keeps unsent x) : Keeps account x :=
  fun s => congrArg (fun c : Core =>
    (c.isSessionActive, c.myKeyPair, c.myPublicKeyExported, c.established)) (hx s)

theorem keeps_account_of_core (hx : Keeps core x) : Keeps account x :=
  keeps_account_of_unsent (keeps_unsent_of_core hx)

end

section

variable (P : CryptoProvider Text Base64)

theorem keeps_account_deriveSession (theirPublicKey : String) :
    Keeps account (deriveSession P theirPublicKey) := by
  intro s
  rcases deriveSession_cases P theirPublicKey s with h | ⟨_, _, _, _, -, -, -, -, h⟩
  · rw [h]
    rfl
  · rw [h]
    rfl

theorem keeps_account_onQueueUpdate (newQueue : String) :
    Keeps account (@onQueueUpdate Base64 newQueue) :=
  .bind (fun _ => rfl) fun _ => keeps_account_of_core (keeps_core_appendNow _ _ _)

theorem emit_ok (e : Emit Base64) (s : ChatManager Base64) :
    ∃ s', emit e s = .ok () s' ∧ s'.account = s.account :=
  ⟨_, rfl, keeps_account_of_core (keeps_core_emit e) s⟩

/-- A new session under a key that has made none. -/
theorem OneSession.establish {s : ChatManager Base64} (hs : OneSession s) (queueId : String)
    (hactive : s.isSessionActive = false) (hpair : s.myKeyPair ≠ none) :
    OneSession { s with
      isSessionActive := true
      established := s.established ++ [(queueId, s.myPublicKeyExported)] } := by
  refine ⟨?_, fun h => by cases h⟩
  rw [List.nodup_append]
  refine ⟨hs.1, List.nodup_singleton _, fun invite hinvite other hother heq => ?_⟩
  rw [List.mem_singleton.mp hother] at heq
  exact hs.2 hactive hpair invite hinvite (congrArg Prod.snd heq)

/-- Without a session, a handshake makes one under the current key. -/
theorem oneSession_onHandshake (queueId : String) (replyQueue : Option String) (publicKey : String)
    {s : ChatManager Base64} (hs : OneSession s) (hactive : s.isSessionActive = false) :
    OneSession (onHandshake P queueId replyQueue publicKey s).state := by
  rw [onHandshake, EStateM.apply_bind, EStateM.apply_modify]
  dsimp only
  rw [EStateM.apply_bind]
  rcases deriveSession_cases P publicKey { s with
    theirQueueId := some (replyQueue.getD ""), theirPublicKeyExported := some publicKey } with
      h | ⟨theirKey, myKeyPair, myPublicKey, sessionKeys, -, hpair, -, -, h⟩
  · rw [h]
    exact hs
  · rw [h]
    dsimp only
    -- beginning a session and emitting leave the account alone
    have hbegun : (ChatManager.begin P { s with
      theirQueueId := some (replyQueue.getD "")
      theirPublicKeyExported := some publicKey } sessionKeys myPublicKey publicKey).account =
        s.account := rfl
    revert hbegun
    generalize ChatManager.begin P _ sessionKeys myPublicKey publicKey = begun
    intro hbegun
    rw [EStateM.apply_bind, EStateM.apply_get]
    dsimp only
    obtain ⟨registered, hregister, hsame⟩ :=
      emit_ok (.registerPeer begun.myQueueId (some (replyQueue.getD ""))) begun
    obtain ⟨asked, hask, hsame'⟩ := emit_ok .createQueue registered
    rw [EStateM.apply_bind, hregister]
    dsimp only
    rw [EStateM.apply_bind, hask]
    dsimp only
    rw [EStateM.apply_bind, EStateM.apply_modify]
    dsimp only
    refine preserves_of_account (keeps_account_of_core (keeps_core_appendNow _ _ _)) _ ?_
    have haccount : asked.account = s.account := hsame'.trans (hsame.trans hbegun)
    have hasked : OneSession asked :=
      (oneSession_congr haccount).mpr hs
    refine hasked.establish queueId ?_ ?_
    · exact (congrArg (·.1) haccount).trans hactive
    · rw [show asked.myKeyPair = s.myKeyPair from congrArg (·.2.1) haccount,
        show s.myKeyPair = some myKeyPair from hpair]
      exact Option.some_ne_none _

mutual

theorem account_processPayload (queueId : String) {s : ChatManager Base64} :
    (payload : Payload Base64) → handshakes payload = 0 →
      (processPayload P queueId payload s).state.account = s.account
  | .queueUpdate newQueue, _ => keeps_account_onQueueUpdate newQueue s
  | .message iv ciphertext _, _ =>
    keeps_account_of_unchained (keeps_unchained_onMessage P iv ciphertext) s
  | .batch events, hnone => account_processEvents queueId events hnone
  | .other, _ => rfl
  | .broken, _ => rfl

theorem account_processEvents (queueId : String) {s : ChatManager Base64} :
    (events : List (Payload Base64)) → allHandshakes events = 0 →
      (processEvents P queueId events s).state.account = s.account
  | [], _ => rfl
  | payload :: events, hnone => by
    obtain ⟨hfirst, hrest⟩ := Nat.add_eq_zero_iff.mp hnone
    rw [processEvents]
    rcases EStateM.state_bind (processPayload P queueId payload)
      (fun _ => processEvents P queueId events) s with h | ⟨_, h⟩
    · rw [h, account_processPayload queueId payload hfirst]
    · rw [h, account_processEvents queueId events hrest, account_processPayload queueId payload hfirst]

end

mutual

/-- Without a session, a payload with one handshake at most. -/
theorem oneSession_processPayload (queueId : String) {s : ChatManager Base64} (hs : OneSession s)
    (hactive : s.isSessionActive = false) : (payload : Payload Base64) → handshakes payload ≤ 1 →
      OneSession (processPayload P queueId payload s).state
  | .handshake replyQueue publicKey, _ => oneSession_onHandshake P queueId replyQueue publicKey hs hactive
  | .batch events, hone => oneSession_processEvents queueId hs hactive events hone
  | .queueUpdate newQueue, _ =>
    (oneSession_congr (account_processPayload P queueId (.queueUpdate newQueue) rfl)).mpr hs
  | .message iv ciphertext ephemeral, _ =>
    (oneSession_congr (account_processPayload P queueId (.message iv ciphertext ephemeral) rfl)).mpr hs
  | .other, _ => hs
  | .broken, _ => hs

theorem oneSession_processEvents (queueId : String) {s : ChatManager Base64} (hs : OneSession s)
    (hactive : s.isSessionActive = false) : (events : List (Payload Base64)) →
      allHandshakes events ≤ 1 → OneSession (processEvents P queueId events s).state
  | [], _ => hs
  | payload :: events, hone => by
    rw [allHandshakes] at hone
    rw [processEvents]
    rcases Nat.eq_zero_or_pos (handshakes payload) with hnone | hpos
    · -- the handshake is still to come
      have haccount := account_processPayload P queueId payload hnone (s := s)
      have hfirst := (oneSession_congr haccount).mpr hs
      rcases EStateM.state_bind (processPayload P queueId payload)
        (fun _ => processEvents P queueId events) s with h | ⟨_, h⟩
      · rw [h]
        exact hfirst
      · rw [h]
        exact oneSession_processEvents queueId hfirst ((congrArg (·.1) haccount).trans hactive) events
          (by omega)
    · -- this was the handshake
      have hfirst := oneSession_processPayload queueId hs hactive payload (by omega)
      rcases EStateM.state_bind (processPayload P queueId payload)
        (fun _ => processEvents P queueId events) s with h | ⟨_, h⟩
      · rw [h]
        exact hfirst
      · rw [h]
        exact (oneSession_congr (account_processEvents P queueId events (by omega))).mpr hfirst

end

/-! ## Everything else -/

theorem oneSession_acceptInvite (queueId pubKeyBase64 : String) :
    Preserves OneSession (acceptInvite P queueId pubKeyBase64) := by
  have hcore {α : Type} {x : Handler Base64 α} (hx : Keeps core x) : Preserves OneSession x :=
    preserves_of_account (keeps_account_of_core hx)
  refine .bind (fun _ hs => hs) fun now => ?_
  split
  · exact .modify fun _ hs => hs
  · refine .bind (.modify fun _ hs => hs) fun _ => ?_
    refine .bind (preserves_of_account (keeps_account_deriveSession P _)) fun _ => ?_
    refine .bind (fun _ hs => hs) fun begun => ?_
    refine .bind (.modify fun _ hs => hs) fun _ => ?_
    refine .bind (hcore (keeps_core_emit _)) fun _ => ?_
    refine .bind (hcore (keeps_core_emit _)) fun _ => ?_
    refine .bind (hcore (keeps_core_appendNow _ _ _)) fun _ => ?_
    exact .modify fun s hs => ⟨hs.1, fun h => by cases h⟩

theorem oneSession_resetClient : Preserves OneSession (@resetClient Base64) :=
  .modify fun _ hs => ⟨hs.1, fun _ h => absurd rfl h⟩

theorem oneSession_runPosted : Preserves OneSession (runPosted P) := by
  refine .bind (fun _ hs => hs) fun s => ?_
  split
  · exact .pure _
  · rename_i task tasks _
    refine .bind (.modify fun _ hs => hs) fun _ => ?_
    cases task with
    | append chatPartner message => exact .modify fun _ hs => hs
    | acceptInvite queueId pubKeyBase64 => exact oneSession_acceptInvite P queueId pubKeyBase64
    | infinitySnap => exact oneSession_resetClient

theorem keeps_account_pushEncrypted (payload : Content) (ephemeral : Bool) :
    Keeps account (pushEncrypted P payload ephemeral) :=
  keeps_account_of_unsent (keeps_unsent_pushEncrypted P payload ephemeral)

theorem keeps_account_sendAndMark (payload : Content) (mark : Handler Base64 Unit)
    (hmark : Keeps account mark) :
    Keeps account (do if ← pushEncrypted P payload then mark) :=
  .bind (keeps_account_pushEncrypted P payload false) fun _ => .ite hmark (.pure _)

theorem keeps_account_sendPrivateMessage (text : String) :
    Keeps account (sendPrivateMessage P text) :=
  .bind (fun _ => rfl) fun _ => .ite
    (.bind (fun _ => rfl) fun timestamp =>
      keeps_account_sendAndMark P (.text text (some timestamp)) (appendNow .you text)
        (keeps_account_of_core (keeps_core_appendNow _ _ _)))
    (.pure _)

theorem keeps_account_onQueueCreated (queueId : String) :
    Keeps account (@onQueueCreated Base64 queueId) := by
  have hcore {α : Type} {x : Handler Base64 α} (hx : Keeps core x) : Keeps account x :=
    keeps_account_of_core hx
  refine .bind (fun _ => rfl) fun now => .bind (fun _ => rfl) fun _ => ?_
  split
  · exact .bind (hcore (keeps_core_emit _)) fun _ => hcore (keeps_core_emit _)
  · split
    · exact .pure _
    · exact .bind (fun _ => rfl) fun _ => hcore (keeps_core_post _)

/-- No handshake comes while there is a session, no payload brings two of them, and a key pair that
is generated has made no session yet. -/
def Guarded (s : ChatManager Base64) : Input Base64 → Prop
  | .connected (some keyPair) =>
    ∀ invite ∈ s.established, invite.2 ≠ some (P.exportPublicKey keyPair.pub)
  | .queuePayload _ payload => handshakes payload ≤ if s.isSessionActive then 0 else 1
  | _ => True

theorem oneSession_after {s : ChatManager Base64} (hs : OneSession s) {input : Input Base64}
    (hok : Guarded P s input) : OneSession (s.after P input) := by
  have hcore {α : Type} {x : Handler Base64 α} (hx : Keeps core x) : OneSession (x s).state :=
    preserves_of_account (keeps_account_of_core hx) s hs
  have haccount {α : Type} {x : Handler Base64 α} (hx : Keeps account x) : OneSession (x s).state :=
    preserves_of_account hx s hs
  cases input with
  | connected generated =>
    rcases generated with _ | keyPair
    · exact hs
    · refine preserves_of_account (keeps_account_of_core (keeps_core_emit .createQueue)) _ ?_
      exact ⟨hs.1, fun _ _ => hok⟩
  | disconnected => exact hs
  | connectError rejected =>
    cases rejected with
    | true => exact hcore (keeps_core_post _)
    | false => exact hs
  | queueCreated queueId => exact haccount (keeps_account_onQueueCreated queueId)
  | queuePayload queueId payload =>
    -- with a session there is to be no handshake, without one at most one
    rcases hactive : s.isSessionActive with _ | _
    · exact oneSession_processPayload P queueId hs hactive payload (by simpa [Guarded, hactive] using hok)
    · have hnone : handshakes payload = 0 := by simpa [Guarded, hactive] using hok
      exact (oneSession_congr (account_processPayload P queueId payload hnone)).mpr hs
  | pushQueueError error =>
    exact haccount (.ite (keeps_account_of_core (keeps_core_appendNow _ _ _)) (.pure _))
  | connect => exact haccount (.bind (fun _ => rfl) fun _ => .ite (fun _ => rfl) (.pure _))
  | acceptInvite queueId pubKeyBase64 => exact oneSession_acceptInvite P queueId pubKeyBase64 s hs
  | sendPrivateMessage text => exact haccount (keeps_account_sendPrivateMessage P text)
  | setDisappearingTimer seconds =>
    exact haccount (.bind (fun _ => rfl) fun _ => .discard (keeps_account_pushEncrypted P _ _))
  | sendTypingDraft text => exact haccount (.discard (keeps_account_pushEncrypted P _ _))
  | sendReaction target emoji =>
    exact haccount (keeps_account_sendAndMark P _ _
      (keeps_account_of_core (keeps_core_updateCurrent _)))
  | sendEditMessage target newText =>
    exact haccount (keeps_account_sendAndMark P _ _
      (keeps_account_of_core (keeps_core_updateCurrent _)))
  | sendDeleteMessage target =>
    exact haccount (keeps_account_sendAndMark P _ _
      (keeps_account_of_core (keeps_core_updateCurrent _)))
  | obliviate =>
    exact (Preserves.bind (preserves_of_account (.discard (keeps_account_pushEncrypted P _ _)))
      fun _ => oneSession_resetClient) s hs
  | resetClient => exact oneSession_resetClient s hs
  | keepAlive => exact haccount (.discard (keeps_account_pushEncrypted P _ _))
  | countdown chatPartner messageId => exact hs
  | runPosted => exact oneSession_runPosted P s hs

end

/-- In every run in which a client with a session receives no handshake, every invite makes one
session at most, and plain payloads from outside leave an active session as it is. -/
theorem session_immune {P : CryptoProvider Text Base64} (hP : P.Authentic) {clock : ℕ → ℤ}
    {nonces : ℕ → List UInt8} {s : ChatManager Base64}
    (hrun : Run (step P) (Guarded P) (.init clock nonces) s) :
    s.established.Nodup ∧ ∀ payloads : List (String × Payload Base64), s.isSessionActive →
      (∀ p ∈ payloads, Foreign P s.toSession p.2 ∧ Plain p.2) →
        (payloads.foldl (fun s p => s.after P (.queuePayload p.1 p.2)) s).toSession =
          s.toSession := by
  have hone : OneSession s := by
    refine hrun.invariant ⟨List.nodup_nil, fun _ _ => List.forall_mem_nil _⟩ ?_
    intro s input s' hs hok happly
    obtain rfl := Option.some.inj happly
    exact oneSession_after P hs hok
  refine ⟨hone.1, fun payloads _ hpayloads => ?_⟩
  exact congrArg Core.toSession (core_payloads hP hpayloads)

/-! ## A client and two who know its invite -/

/-- Texts of a cipher that shows what is in them. -/
inductive Sealed
  | iv (nonce : List UInt8)
  | box (key : List UInt8) (text : Content) (role : Role) (seqNum : ℕ) (sessionId : Option String)
deriving DecidableEq

/-- A public key is the private one, a shared secret the sum of two. -/
def sampleProvider : CryptoProvider Content Sealed where
  exportPublicKey pub := String.ofList (pub.map fun b => Char.ofNat b.toNat)
  importPublicKey text := some (text.toList.map fun c => UInt8.ofNat c.toNat)
  deriveSessionKeys myPrivateKey theirPublicKey mine theirs :=
    let secret := myPrivateKey.headD 0 + theirPublicKey.headD 0
    if mine < theirs then some ⟨[secret, 1], [secret, 2]⟩ else some ⟨[secret, 2], [secret, 1]⟩
  computeSafetyNumber mine theirs := if mine < theirs then mine ++ theirs else theirs ++ mine
  encryptMessage key text role seqNum sessionId nonce :=
    some ⟨.iv nonce, .box key text role seqNum sessionId⟩
  decryptMessage key iv ciphertext role seqNum sessionId :=
    match iv, ciphertext with
    | .iv _, .box key' text role' seqNum' sessionId' =>
      if key' = key ∧ role' = role ∧ seqNum' = seqNum ∧ sessionId' = sessionId then some text
      else none
    | _, _ => none
  deriveChainKeys key := (0 :: key, 1 :: key)
  write content := content
  read := some

theorem sampleProvider_authentic : sampleProvider.Authentic := by
  intro key iv ciphertext role seqNum sessionId text hopen
  rcases iv with nonce | _
  · rcases ciphertext with _ | ⟨key', text', role', seqNum', sessionId'⟩
    · cases hopen
    · obtain ⟨⟨rfl, rfl, rfl, rfl⟩, -⟩ := Option.ite_none_right_eq_some.mp hopen
      exact ⟨text', role', seqNum', sessionId', nonce, rfl⟩
  · cases hopen

instance (s : ChatManager Base64) : (input : Input Base64) → Decidable (Guarded P s input)
  | .connected (some keyPair) => inferInstanceAs
      (Decidable (∀ invite ∈ s.established, invite.2 ≠ some (P.exportPublicKey keyPair.pub)))
  | .queuePayload _ payload =>
    inferInstanceAs (Decidable (handshakes payload ≤ if s.isSessionActive then 0 else 1))
  | .connected none | .disconnected | .connectError _ | .queueCreated _ | .pushQueueError _
  | .connect | .acceptInvite _ _ | .sendPrivateMessage _ | .setDisappearingTimer _
  | .sendTypingDraft _ | .sendReaction _ _ | .sendEditMessage _ _ | .sendDeleteMessage _
  | .obliviate | .resetClient | .keepAlive | .countdown _ _ | .runPosted => .isTrue trivial

def newClient : ChatManager Sealed := .init (fun _ => 0) fun _ => []

/-- A client connects, gets a queue, and a peer accepts its invite. -/
def invited : List (Input Sealed) :=
  [.connect, .connected (some ⟨[10], [10]⟩), .queueCreated "q1",
    .queuePayload "q1" (.handshake (some "qa") "A")]

/-- What outsiders may push to the queue. -/
def junk : List (String × Payload Sealed) :=
  [("q1", .message (.iv []) (.box [1] .other .a 0 none) false), ("q1", .batch [.other, .broken])]

theorem junk_ignored : ∃ s : ChatManager Sealed,
    Run (step sampleProvider) (Guarded sampleProvider) newClient s ∧ s.isSessionActive ∧
      s.established.Nodup ∧
      (junk.foldl (fun s p => s.after sampleProvider (.queuePayload p.1 p.2)) s).toSession =
        s.toSession := by
  obtain ⟨s, hrun, hactive⟩ := @Run.exists_of_runAll _ _ (step sampleProvider)
    (Guarded sampleProvider) newClient _ invited (fun s => s.isSessionActive) (by decide +kernel)
  have himmune := session_immune sampleProvider_authentic hrun
  refine ⟨s, hrun, hactive, himmune.1, himmune.2 junk hactive ?_⟩
  intro p hp
  simp only [junk, List.mem_cons, List.not_mem_nil, or_false] at hp
  rcases hp with rfl | rfl
  · refine ⟨?_, trivial⟩
    -- message keys begin with a zero
    rintro chainKey - ⟨n, plaintext, role, seqNum, sessionId, nonce, h⟩
    cases h
  · exact ⟨⟨trivial, trivial, trivial⟩, trivial, trivial, trivial⟩

/-- A second handshake on the queue of the invite takes the place of the peer. -/
theorem second_handshake : ∃ s : ChatManager Sealed,
    Run (step sampleProvider) (fun _ _ => True) newClient s ∧ s.isSessionActive ∧
      Foreign sampleProvider s.toSession (.handshake (some "qm") "M") ∧
      (s.after sampleProvider (.queuePayload "q1" (.handshake (some "qm") "M"))).theirQueueId ≠
        s.theirQueueId ∧
      ¬ (s.after sampleProvider
        (.queuePayload "q1" (.handshake (some "qm") "M"))).established.Nodup := by
  obtain ⟨s, hrun, h⟩ := @Run.exists_of_runAll _ _ (step sampleProvider) (fun _ _ => True)
    newClient _ invited (fun s => s.isSessionActive ∧
      (s.after sampleProvider (.queuePayload "q1" (.handshake (some "qm") "M"))).theirQueueId ≠
        s.theirQueueId ∧
      ¬ (s.after sampleProvider
        (.queuePayload "q1" (.handshake (some "qm") "M"))).established.Nodup) (by decide +kernel)
  obtain ⟨hactive, hqueue, htwice⟩ := of_decide_eq_true h
  exact ⟨s, hrun, hactive, trivial, hqueue, htwice⟩

end AnonyMus.Android.Chat
